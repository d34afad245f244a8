import Dossier.Proofs.Binding.Accepted
import Dossier.Proofs.Binding.Slots
import Dossier.Proofs.Binding.Target

/-!
# Well-formed programs

What holds of every program that binding accepts.

* Expressions read only slots of locals in scope, call only methods that are there, and give each
  of them as many arguments as it can take.
* A declaration takes a slot of the frame that no local in scope has; an assignment goes to a local
  in scope and carries its type.
* The declarations of a body, with the parameters in front of them, have all slots of the frame,
  each one of them.

`wellFormed_bindExpr` and `wellFormed_bindStmts` follow the binder through a body, and
`wellFormed_of_bind` is the result for a program.
-/

set_option autoImplicit false

namespace Dossier.Script

/-! ## Well-formed code -/

/-- All that the expression refers to is there, in a frame of `size` slots and with the locals in
`known` in scope. -/
inductive BoundExpr.WellFormed (p : BoundProgram) (size : Nat) (known : List Local) :
    BoundExpr → Prop
  | const (v : Value) : WellFormed p size known (.const v)
  | slot {l : Local} : l ∈ known → l.slot < size → WellFormed p size known (.slot l.slot)
  | self : WellFormed p size known .self
  | unary {op : UnaryOp} {operand : BoundExpr} :
    WellFormed p size known operand → WellFormed p size known (.unary op operand)
  | binary {op : BinaryOp} {left right : BoundExpr} :
    WellFormed p size known left → WellFormed p size known right →
    WellFormed p size known (.binary op left right)
  | library {m : LibraryMethod} {args : List BoundExpr} :
    m.accepts args.length = true → (∀ arg ∈ args, WellFormed p size known arg) →
    WellFormed p size known (.library m args)
  | call {ci mi : Nat} {m : BoundMethod} {args : List BoundExpr} :
    p.method? ci mi = some m → m.required ≤ args.length → args.length ≤ m.params.length →
    (∀ arg ∈ args, WellFormed p size known arg) → WellFormed p size known (.call ci mi args)

mutual

/-- The same of a statement. -/
inductive BoundStmt.WellFormed (p : BoundProgram) (size : Nat) : List Local → BoundStmt → Prop
  | declare {known : List Local} {i : Nat} {type : Option ValueType} {init : Option BoundExpr} :
    i < size → (∀ l ∈ known, l.slot ≠ i) → type ≠ some .void →
    (∀ e ∈ init, e.WellFormed p size known) →
    BoundStmt.WellFormed p size known (.declare i type init)
  | assign {known : List Local} {l : Local} {op : Option BinaryOp} {value : BoundExpr} :
    l ∈ known → l.slot < size → value.WellFormed p size known →
    BoundStmt.WellFormed p size known (.assign l.slot l.type op value)
  | giveBack {known : List Local} {value : Option BoundExpr} :
    (∀ e ∈ value, e.WellFormed p size known) → BoundStmt.WellFormed p size known (.giveBack value)
  | branch {known : List Local} {condition : BoundExpr} {body otherwise : List BoundStmt} :
    condition.WellFormed p size known → AllWellFormed p size known body →
    AllWellFormed p size known otherwise →
    BoundStmt.WellFormed p size known (.branch condition body otherwise)
  | loop {known : List Local} {condition : BoundExpr} {body : List BoundStmt} :
    condition.WellFormed p size known → AllWellFormed p size known body →
    BoundStmt.WellFormed p size known (.loop condition body)
  | throw {known : List Local} {value : BoundExpr} :
    value.WellFormed p size known → BoundStmt.WellFormed p size known (.throw value)
  | block {known : List Local} {body : List BoundStmt} :
    AllWellFormed p size known body → BoundStmt.WellFormed p size known (.block body)
  | expr {known : List Local} {e : BoundExpr} :
    e.WellFormed p size known → BoundStmt.WellFormed p size known (.expr e)

/-- The same of statements that follow each other in one scope. -/
inductive AllWellFormed (p : BoundProgram) (size : Nat) : List Local → List BoundStmt → Prop
  | nil {known : List Local} : AllWellFormed p size known []
  | cons {known : List Local} {stmt : BoundStmt} {rest : List BoundStmt} :
    BoundStmt.WellFormed p size known stmt → AllWellFormed p size (stmt.known known) rest →
    AllWellFormed p size known (stmt :: rest)

end

/-- The locals of a method: its parameters and all that its body declares. -/
def BoundMethod.locals (m : BoundMethod) : List Local :=
  paramLocals 0 m.params ++ declarationsIn m.body

/-- The locals in scope where the body of a method starts. -/
def BoundMethod.atStart (m : BoundMethod) : List Local := (paramLocals 0 m.params).reverse

/-- A method that refers only to what is there. -/
structure BoundMethod.WellFormed (p : BoundProgram) (m : BoundMethod) : Prop where
  /-- Every slot is that of one local. -/
  slots : Takes 0 m.frameSize m.locals
  /-- No parameter is void. -/
  params : ∀ q ∈ m.params, q.type ≠ .void
  /-- So does its body. -/
  body : AllWellFormed p m.frameSize m.atStart m.body

/-- A program whose methods refer only to what is there. -/
def BoundProgram.WellFormed (p : BoundProgram) : Prop :=
  ∀ ci mi m, p.method? ci mi = some m → m.WellFormed p

/-! ## Expressions -/

/-- The signatures that a body can refer to are those of a program. -/
def Surroundings.Fits (s : Surroundings) (p : BoundProgram) : Prop :=
  ∀ ci mi c m, s.classes[ci]? = some c → c.methods[mi]? = some m →
    ∃ b, p.method? ci mi = some b ∧ b.toSignature = m

namespace Surroundings

variable {s : Surroundings} {p : BoundProgram}

theorem wellFormed_call (hs : s.Fits p) {size : Nat} {known : List Local} {t : Target}
    {args : List BoundExpr} (ha : s.Admits t args.length)
    (hargs : ∀ arg ∈ args, arg.WellFormed p size known) :
    (t.call args).WellFormed p size known := by
  cases t with
  | method ci mi =>
    obtain ⟨c, m, hc, hm, hmin, hmax⟩ := ha
    obtain ⟨b, hb, rfl⟩ := hs ci mi c m hc hm
    exact .call hb hmin hmax hargs
  | library m => exact .library ha hargs

variable {size : Nat} {scopes : Scopes}

mutual

/-- **An expression is bound to a well-formed one**, if nothing is noted about it. -/
theorem wellFormed_bindExpr (hs : s.Fits p) (hb : ∀ l ∈ scopes.locals, l.slot < size) :
    (e : Expr) → (s.bindExpr scopes e).notes = [] →
    (s.bindExpr scopes e).value.WellFormed p size scopes.locals
  | .literal l _, _ => .const l.value
  | .name n, h => by
    rw [bindExpr] at h ⊢
    cases hl : scopes.find? n.text with
    | some l =>
      have hmem := Scopes.mem_locals_of_find? hl
      exact .slot hmem (hb l hmem)
    | none =>
      simp only [hl] at h
      exact absurd h (instead_ne_nil _ _)
  | .self _, _ => .self
  | .unary op operand _, h => by
    simp only [bindExpr, Noted.notes_bind, Noted.notes_pure, List.append_nil] at h
    exact .unary (wellFormed_bindExpr hs hb operand h)
  | .binary op left right _, h => by
    simp only [bindExpr, Noted.notes_bind, Noted.notes_pure, List.append_nil,
      List.append_eq_nil_iff] at h
    exact .binary (wellFormed_bindExpr hs hb left h.1) (wellFormed_bindExpr hs hb right h.2)
  | .member base member _, h => absurd h (instead_ne_nil _ _)
  | .call callee args span, h => by
    simp only [bindExpr, Noted.notes_bind, List.append_eq_nil_iff] at h
    obtain ⟨t, -, hv, ha⟩ := callExpr_clean h.2
    simp only [bindExpr, Noted.value_bind, hv]
    exact wellFormed_call hs ha (wellFormed_bindArgs hs hb args h.1)

theorem wellFormed_bindArgs (hs : s.Fits p) (hb : ∀ l ∈ scopes.locals, l.slot < size) :
    (args : List Expr) → (s.bindArgs scopes args).notes = [] →
    ∀ arg ∈ (s.bindArgs scopes args).value, arg.WellFormed p size scopes.locals
  | [], _ => by simp [bindArgs]
  | arg :: args, h => by
    simp only [bindArgs, Noted.notes_bind, Noted.notes_pure, List.append_nil,
      List.append_eq_nil_iff] at h
    simp only [bindArgs, Noted.value_bind, Noted.value_pure, List.forall_mem_cons]
    exact ⟨wellFormed_bindExpr hs hb arg h.1, wellFormed_bindArgs hs hb args h.2⟩

end

theorem wellFormed_bindExpr? (hs : s.Fits p) (hb : ∀ l ∈ scopes.locals, l.slot < size)
    {e : Option Expr} (h : (s.bindExpr? scopes e).notes = []) :
    ∀ b ∈ (s.bindExpr? scopes e).value, b.WellFormed p size scopes.locals := by
  cases e with
  | none => simp [bindExpr?]
  | some e =>
    simp only [bindExpr?, Noted.notes_bind, Noted.notes_pure, List.append_nil] at h
    rintro b ⟨⟩
    exact wellFormed_bindExpr hs hb e h

/-! ## Simple statements -/

theorem value_bindTypeName_ne_void (type : TypeName) : (bindTypeName type).value ≠ .void := by
  rw [bindTypeName]
  split
  · simp
  · rename_i hne _
    exact hne
  · simp

theorem value_bindTypeName?_ne_void (type : Option TypeName) :
    (bindTypeName? type).value ≠ some .void := by
  cases type with
  | none => simp [bindTypeName?]
  | some type => simpa [bindTypeName?] using value_bindTypeName_ne_void type

theorem wellFormed_bindDeclare (hs : s.Fits p) {d : Declared} (hd : d.Tidy) {name : Name}
    {type : Option TypeName} {init : Option Expr} (hsize : d.frameSize < size)
    (h : (s.bindDeclare d name type init).notes = []) :
    (s.bindDeclare d name type init).value.1.WellFormed p size d.locals := by
  simp only [bindDeclare, Noted.notes_bind, List.append_eq_nil_iff] at h
  exact .declare hsize (fun l hl ↦ Nat.ne_of_lt (hd.taken l hl)) (value_bindTypeName?_ne_void type)
    (wellFormed_bindExpr? hs (hd.below (Nat.le_of_lt hsize)) h.2.1)

theorem wellFormed_bindAssign (hs : s.Fits p) (hb : ∀ l ∈ scopes.locals, l.slot < size)
    {op : AssignOp} {target value : Expr} (h : (s.bindAssign scopes op target value).notes = []) :
    (s.bindAssign scopes op target value).value.WellFormed p size scopes.locals := by
  simp only [bindAssign, Noted.notes_bind, List.append_eq_nil_iff] at h
  have hv := wellFormed_bindExpr hs hb value h.1
  cases target with
  | name n =>
    simp only [bindAssign, Noted.value_bind]
    cases hl : scopes.find? n.text with
    | some l =>
      have hmem := Scopes.mem_locals_of_find? hl
      exact .assign hmem (hb l hmem) hv
    | none => exact .expr hv
  | _ => exact .expr hv

theorem wellFormed_bindGiveBack (hs : s.Fits p) (hb : ∀ l ∈ scopes.locals, l.slot < size)
    {value : Option Expr} {span : Text.Span} (h : (s.bindGiveBack scopes value span).notes = []) :
    (s.bindGiveBack scopes value span).value.WellFormed p size scopes.locals := by
  unfold bindGiveBack at h ⊢
  split
  · exact .giveBack (by simp)
  · exact .giveBack (by simp)
  · simp only [Noted.notes_bind, Noted.notes_pure, List.append_nil] at h
    exact .giveBack (wellFormed_bindExpr? hs hb h)

/-! ## All statements -/

mutual

theorem wellFormed_bindStmt (hs : s.Fits p) {d : Declared} (hd : d.Tidy) :
    (stmt : Stmt) → (s.bindStmt d stmt).value.2.frameSize ≤ size →
    (s.bindStmt d stmt).notes = [] →
    (s.bindStmt d stmt).value.1.WellFormed p size d.locals
  | .declare name type init _, hsize, h => wellFormed_bindDeclare hs hd hsize h
  | .assign op target value _, hsize, h => by
    simp only [bindStmt, Noted.notes_bind, Noted.notes_pure, List.append_nil] at h
    exact wellFormed_bindAssign hs (hd.below hsize) h
  | .giveBack value span, hsize, h => by
    simp only [bindStmt, Noted.notes_bind, Noted.notes_pure, List.append_nil] at h
    exact wellFormed_bindGiveBack hs (hd.below hsize) h
  | .branch condition body _ otherwise _, hsize, h => by
    simp only [bindStmt, Noted.notes_bind, Noted.notes_pure, List.append_nil,
      List.append_eq_nil_iff] at h
    -- no slot is given back, so that a bound on the slots after a part holds before it as well
    have hinner := (s.takes_bindStmts d.enter body).le
    have houter := (s.takes_bindOtherwise ((s.bindStmts d.enter body).value.2.leaveTo d)
      otherwise).le
    have hbody := Nat.le_trans houter hsize
    exact .branch (wellFormed_bindExpr hs (hd.below (Nat.le_trans hinner hbody)) condition h.1)
      (wellFormed_bindStmts hs hd.enter body hbody h.2.1)
      (wellFormed_bindOtherwise hs (hd.leaveTo hinner) otherwise hsize h.2.2)
  | .loop condition body _ _, hsize, h => by
    simp only [bindStmt, Noted.notes_bind, Noted.notes_pure, List.append_nil,
      List.append_eq_nil_iff] at h
    have hinner := (s.takes_bindStmts d.enter body).le
    exact .loop (wellFormed_bindExpr hs (hd.below (Nat.le_trans hinner hsize)) condition h.1)
      (wellFormed_bindStmts hs hd.enter body hsize h.2)
  | .throw value _, hsize, h => by
    simp only [bindStmt, Noted.notes_bind, Noted.notes_pure, List.append_nil] at h
    exact .throw (wellFormed_bindExpr hs (hd.below hsize) value h)
  | .block body _, hsize, h => by
    simp only [bindStmt, Noted.notes_bind, Noted.notes_pure, List.append_nil] at h
    exact .block (wellFormed_bindStmts hs hd.enter body hsize h)
  | .expr e span, hsize, h => by
    simp only [bindStmt, Noted.notes_bind, Noted.notes_pure, List.append_nil,
      List.append_eq_nil_iff] at h
    exact .expr (wellFormed_bindExpr hs (hd.below hsize) e h.2)

theorem wellFormed_bindOtherwise (hs : s.Fits p) {d : Declared} (hd : d.Tidy) :
    (o : Otherwise) → (s.bindOtherwise d o).value.2.frameSize ≤ size →
    (s.bindOtherwise d o).notes = [] →
    AllWellFormed p size d.locals (s.bindOtherwise d o).value.1
  | .nothing, _, _ => .nil
  | .block body _, hsize, h => by
    simp only [bindOtherwise, Noted.notes_bind, Noted.notes_pure, List.append_nil] at h
    exact wellFormed_bindStmts hs hd.enter body hsize h
  | .branch condition body _ otherwise _, hsize, h => by
    simp only [bindOtherwise, Noted.notes_bind, Noted.notes_pure, List.append_nil,
      List.append_eq_nil_iff] at h
    have hinner := (s.takes_bindStmts d.enter body).le
    have houter := (s.takes_bindOtherwise ((s.bindStmts d.enter body).value.2.leaveTo d)
      otherwise).le
    have hbody := Nat.le_trans houter hsize
    refine .cons (.branch ?_ ?_ ?_) .nil
    · exact wellFormed_bindExpr hs (hd.below (Nat.le_trans hinner hbody)) condition h.1
    · exact wellFormed_bindStmts hs hd.enter body hbody h.2.1
    · exact wellFormed_bindOtherwise hs (hd.leaveTo hinner) otherwise hsize h.2.2

/-- **Statements are bound to well-formed ones**, if nothing is noted about them. -/
theorem wellFormed_bindStmts (hs : s.Fits p) {d : Declared} (hd : d.Tidy) :
    (stmts : List Stmt) → (s.bindStmts d stmts).value.2.frameSize ≤ size →
    (s.bindStmts d stmts).notes = [] →
    AllWellFormed p size d.locals (s.bindStmts d stmts).value.1
  | [], _, _ => .nil
  | first :: rest, hsize, h => by
    simp only [bindStmts, Noted.notes_bind, Noted.notes_pure, List.append_nil,
      List.append_eq_nil_iff] at h
    have hrest := (s.takes_bindStmts (s.bindStmt d first).value.2 rest).le
    refine .cons (wellFormed_bindStmt hs hd first (Nat.le_trans hrest hsize) h.1) ?_
    have hk : (s.bindStmt d first).value.1.known d.locals = (s.bindStmt d first).value.2.locals :=
      s.known_bindStmt hd.nonempty first
    show AllWellFormed p size ((s.bindStmt d first).value.1.known d.locals) _
    rw [hk]
    exact wellFormed_bindStmts hs (hd.bindStmt s first) rest hsize h.2

end

end Surroundings

/-! ## Methods and programs -/

theorem type_bindParam_ne_void {method : String} {q : Parameter}
    (h : (bindParam method q).notes = []) : (bindParam method q).value.type ≠ .void := by
  simp only [bindParam, Noted.notes_bind, List.append_eq_nil_iff, Noted.notes_noteIf] at h
  have htype : (bindParam method q).value.type = (bindSignatureType method q.type).value := by
    cases hq : q.default? <;> simp [bindParam, hq]
  rw [htype]
  simpa using h.2.1

theorem type_ne_void_of_bindParams {method : String} {before : List String} {ps : List Parameter}
    (h : (bindParams method before ps).notes = []) :
    ∀ q ∈ (bindParams method before ps).value, q.type ≠ .void := by
  induction ps generalizing before with
  | nil => simp [bindParams]
  | cons q qs ih =>
    simp only [bindParams, Noted.notes_bind, Noted.notes_pure, List.append_eq_nil_iff] at h
    simp only [bindParams, Noted.value_bind, Noted.value_pure, List.forall_mem_cons]
    exact ⟨type_bindParam_ne_void h.2.1, ih h.2.2.1⟩

theorem Site.wellFormed {t : Site} {p : BoundProgram} (ht : t.Accepted)
    (hp : t.surroundings.Fits p) (hparams : ∀ q ∈ t.surroundings.method.params, q.type ≠ .void) :
    t.bound.WellFormed p := by
  have hd := Declared.tidy_ofParams t.surroundings.method.params
  have hclean := ht.bodyClean
  simp only [Site.bodyNoted, Surroundings.bindBody, Noted.notes_bind, Noted.notes_pure,
    List.append_nil] at hclean
  refine ⟨?_, hparams, ?_⟩
  · have hps := takes_paramLocals 0 t.surroundings.method.params
    rw [Nat.zero_add] at hps
    have hbody := t.surroundings.takes_bindStmts
      (Declared.ofParams t.surroundings.method.params) t.statements
    rw [Declared.frameSize_ofParams] at hbody
    exact hps.append hbody
  · have hbody := Surroundings.wellFormed_bindStmts hp hd t.statements (Nat.le_refl _) hclean
    rwa [Declared.locals_ofParams] at hbody

theorem fits_of_bind {u : CompileUnit} {refs : List String} {p : BoundProgram}
    (h : bind u refs = .ok p) {ci mi : Nat} {t : Site} (ht : site? u ci mi = some t) :
    t.surroundings.Fits p := by
  intro ci' mi' c m hc hm
  rw [surroundings_of_site? ht] at hc
  obtain ⟨t', ht', rfl⟩ := method_of_signatures hc hm
  exact ⟨t'.bound, by rw [method?_of_bind h, ht', Option.map_some], rfl⟩

/-- **Every program that binding accepts is well-formed.** -/
theorem wellFormed_of_bind {u : CompileUnit} {refs : List String} {p : BoundProgram}
    (h : bind u refs = .ok p) : p.WellFormed := by
  intro ci mi m hm
  rw [method?_of_bind h, Option.map_eq_some_iff] at hm
  obtain ⟨t, ht, rfl⟩ := hm
  have hacc := accepted_of_bind h ht
  refine Site.wellFormed hacc (fits_of_bind h ht) ?_
  obtain ⟨c, decl, -, -, rfl⟩ := site?_eq_some ht
  have hsig := hacc.signature
  simp only [siteIn, bindSignature, Noted.notes_bind, Noted.notes_pure,
    List.append_eq_nil_iff] at hsig
  exact type_ne_void_of_bindParams hsig.2.1

end Dossier.Script
