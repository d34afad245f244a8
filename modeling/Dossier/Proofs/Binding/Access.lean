import Dossier.Proofs.Binding.WellFormed

/-!
# Access

Which expressions may stand in the code of a method.  A callee is handed the instance of its caller,
whatever form the call has, so that a call of a method that needs an instance may stand only where
the instance is one of the callee's class.

* `BoundExpr.parts` and `partsIn` list the expressions of code, at every depth.
* `BoundProgram.Permits` is the rule: `this` needs an instance; a method of another class must be
  shared; a method with an instance is called within its own class, and by another such method.
* `permits_callExpr` goes through the forms of a call, and `permits_of_bind` says that all
  expressions of an accepted program follow the rule.
-/

set_option autoImplicit false

namespace Dossier.Script

/-! ## The expressions of code -/

mutual

/-- The expression and all expressions within it. -/
def BoundExpr.parts : BoundExpr → List BoundExpr
  | .const v => [.const v]
  | .slot i => [.slot i]
  | .self => [.self]
  | .unary op operand => .unary op operand :: operand.parts
  | .binary op left right => .binary op left right :: (left.parts ++ right.parts)
  | .library m args => .library m args :: partsOf args
  | .call ci mi args => .call ci mi args :: partsOf args

/-- The expressions and all expressions within them. -/
def partsOf : List BoundExpr → List BoundExpr
  | [] => []
  | e :: es => e.parts ++ partsOf es

end

mutual

/-- The expressions of a statement, at every depth. -/
def BoundStmt.parts : BoundStmt → List BoundExpr
  | .declare _ _ init => partsOf init.toList
  | .assign _ _ _ value => value.parts
  | .giveBack value => partsOf value.toList
  | .branch condition body otherwise => condition.parts ++ (partsIn body ++ partsIn otherwise)
  | .loop condition body => condition.parts ++ partsIn body
  | .throw value => value.parts
  | .block body => partsIn body
  | .expr e => e.parts

/-- The expressions of statements, at every depth. -/
def partsIn : List BoundStmt → List BoundExpr
  | [] => []
  | s :: rest => s.parts ++ partsIn rest

end

theorem BoundExpr.mem_parts (e : BoundExpr) : e ∈ e.parts := by
  cases e <;> simp [parts]

theorem Target.parts_call (t : Target) (args : List BoundExpr) :
    (t.call args).parts = t.call args :: partsOf args := by
  cases t <;> rfl

/-! ## The rule -/

/-- The expression may stand in a method of the class at a position, which is static or not. -/
def BoundProgram.Permits (p : BoundProgram) (classIndex : Nat) (static : Bool) : BoundExpr → Prop
  | .self => static = false
  | .call ci mi _ => ∃ m, p.method? ci mi = some m ∧ (classIndex = ci ∨ m.isShared = true) ∧
      (m.isStatic = false → classIndex = ci ∧ static = false)
  | _ => True

namespace Surroundings

/-- The rule for the code with these surroundings. -/
abbrev Permits (s : Surroundings) (p : BoundProgram) : BoundExpr → Prop :=
  p.Permits s.classIndex s.method.isStatic

variable {s : Surroundings} {p : BoundProgram} {scopes : Scopes}

/-! ## Calls -/

section Calls

variable {name : Name} {args : List BoundExpr} {span : Text.Span}

/-- A call that is accepted follows the rule, if a form that means the class of the caller is used
for that class, and a call on `this` where there is one. -/
theorem permits_callMethod (hs : s.Fits p) {ci : Nat} {form : CallForm}
    (hown : form ≠ .onClass → s.classIndex = ci)
    (hself : form = .onSelf → s.method.isStatic = false)
    (h : (s.callMethod ci name args span form).notes = []) :
    s.Permits p (s.callMethod ci name args span form).value := by
  obtain ⟨c, mi, m, hc, -, hm, hvalue, hshared, -, hreceiver, -⟩ := callMethod_checked h
  obtain ⟨b, hb, rfl⟩ := hs ci mi c m hc hm
  rw [hvalue]
  refine ⟨b, hb, hshared.imp_left Eq.symm, fun hstatic ↦ ?_⟩
  have hreceiver := hreceiver hstatic
  cases form with
  | bare => exact ⟨hown (by decide), by simpa [hasReceiver] using hreceiver⟩
  | onSelf => exact ⟨hown (by decide), hself rfl⟩
  | onClass => cases hreceiver

/-- **A call in any form follows the rule**, if nothing is noted about it. -/
theorem permits_callExpr (hs : s.Fits p) {callee : Expr}
    (h : (s.callExpr scopes callee args span).notes = []) :
    s.Permits p (s.callExpr scopes callee args span).value := by
  cases calls_of_clean h with
  | method ci name form htarget hown hself heq =>
    rw [heq] at h ⊢
    exact permits_callMethod hs hown hself h
  | library modules className name htarget heq =>
    rw [heq] at h ⊢
    obtain ⟨m, -, hv, -⟩ := callLibrary_clean h
    rw [hv]
    trivial

end Calls

/-! ## Expressions -/

mutual

/-- **All parts of a bound expression follow the rule**, if nothing is noted about it. -/
theorem permits_bindExpr (hs : s.Fits p) : (e : Expr) → (s.bindExpr scopes e).notes = [] →
    ∀ x ∈ (s.bindExpr scopes e).value.parts, s.Permits p x
  | .literal l _, _ => by simp [bindExpr, BoundExpr.parts, BoundProgram.Permits]
  | .name n, h => by
    rw [bindExpr] at h ⊢
    cases hl : scopes.find? n.text with
    | some l => simp [BoundExpr.parts, BoundProgram.Permits]
    | none =>
      simp only [hl] at h
      exact absurd h (instead_ne_nil _ _)
  | .self _, h => by
    simp only [bindExpr, checkSelf, Noted.notes_bind, Noted.notes_pure, List.append_nil,
      notes_foundIf] at h
    simpa [bindExpr, BoundExpr.parts, BoundProgram.Permits] using h
  | .unary op operand _, h => by
    simp only [bindExpr, Noted.notes_bind, Noted.notes_pure, List.append_nil] at h
    simp only [bindExpr, Noted.value_bind, Noted.value_pure, BoundExpr.parts,
      List.forall_mem_cons]
    exact ⟨trivial, permits_bindExpr hs operand h⟩
  | .binary op left right _, h => by
    simp only [bindExpr, Noted.notes_bind, Noted.notes_pure, List.append_nil,
      List.append_eq_nil_iff] at h
    simp only [bindExpr, Noted.value_bind, Noted.value_pure, BoundExpr.parts,
      List.forall_mem_cons, List.forall_mem_append]
    exact ⟨trivial, permits_bindExpr hs left h.1, permits_bindExpr hs right h.2⟩
  | .member base member _, h => absurd h (instead_ne_nil _ _)
  | .call callee args span, h => by
    simp only [bindExpr, Noted.notes_bind, List.append_eq_nil_iff] at h
    have hcall := permits_callExpr hs h.2
    obtain ⟨t, -, hv, -⟩ := callExpr_clean h.2
    simp only [bindExpr, Noted.value_bind, hv, Target.parts_call, List.forall_mem_cons]
    exact ⟨hv ▸ hcall, permits_bindArgs hs args h.1⟩

theorem permits_bindArgs (hs : s.Fits p) : (args : List Expr) →
    (s.bindArgs scopes args).notes = [] →
    ∀ x ∈ partsOf (s.bindArgs scopes args).value, s.Permits p x
  | [], _ => by simp [bindArgs, partsOf]
  | arg :: args, h => by
    simp only [bindArgs, Noted.notes_bind, Noted.notes_pure, List.append_nil,
      List.append_eq_nil_iff] at h
    simp only [bindArgs, Noted.value_bind, Noted.value_pure, partsOf, List.forall_mem_append]
    exact ⟨permits_bindExpr hs arg h.1, permits_bindArgs hs args h.2⟩

end

theorem permits_bindExpr? (hs : s.Fits p) {e : Option Expr}
    (h : (s.bindExpr? scopes e).notes = []) :
    ∀ x ∈ partsOf (s.bindExpr? scopes e).value.toList, s.Permits p x := by
  cases e with
  | none => simp [bindExpr?, partsOf]
  | some e =>
    simp only [bindExpr?, Noted.notes_bind, Noted.notes_pure, List.append_nil] at h
    simpa [bindExpr?, partsOf] using permits_bindExpr hs e h

/-! ## Statements -/

theorem permits_bindDeclare (hs : s.Fits p) {d : Declared} {name : Name} {type : Option TypeName}
    {init : Option Expr} (h : (s.bindDeclare d name type init).notes = []) :
    ∀ x ∈ (s.bindDeclare d name type init).value.1.parts, s.Permits p x := by
  simp only [bindDeclare, Noted.notes_bind, List.append_eq_nil_iff] at h
  exact permits_bindExpr? hs h.2.1

theorem permits_bindAssign (hs : s.Fits p) {op : AssignOp} {target value : Expr}
    (h : (s.bindAssign scopes op target value).notes = []) :
    ∀ x ∈ (s.bindAssign scopes op target value).value.parts, s.Permits p x := by
  simp only [bindAssign, Noted.notes_bind, List.append_eq_nil_iff] at h
  have hv := permits_bindExpr hs value h.1
  cases target with
  | name n =>
    simp only [bindAssign, Noted.value_bind]
    cases scopes.find? n.text with
    | some l => exact hv
    | none => exact hv
  | _ => exact hv

theorem permits_bindGiveBack (hs : s.Fits p) {value : Option Expr} {span : Text.Span}
    (h : (s.bindGiveBack scopes value span).notes = []) :
    ∀ x ∈ (s.bindGiveBack scopes value span).value.parts, s.Permits p x := by
  unfold bindGiveBack at h ⊢
  split
  · simp [BoundStmt.parts, partsOf]
  · simp [BoundStmt.parts, partsOf]
  · simp only [Noted.notes_bind, Noted.notes_pure, List.append_nil] at h
    exact permits_bindExpr? hs h

mutual

theorem permits_bindStmt (hs : s.Fits p) {d : Declared} : (stmt : Stmt) →
    (s.bindStmt d stmt).notes = [] → ∀ x ∈ (s.bindStmt d stmt).value.1.parts, s.Permits p x
  | .declare name type init _, h => permits_bindDeclare hs h
  | .assign op target value _, h => by
    simp only [bindStmt, Noted.notes_bind, Noted.notes_pure, List.append_nil] at h
    exact permits_bindAssign hs h
  | .giveBack value span, h => by
    simp only [bindStmt, Noted.notes_bind, Noted.notes_pure, List.append_nil] at h
    exact permits_bindGiveBack hs h
  | .branch condition body _ otherwise _, h => by
    simp only [bindStmt, Noted.notes_bind, Noted.notes_pure, List.append_nil,
      List.append_eq_nil_iff] at h
    simp only [bindStmt, Noted.value_bind, Noted.value_pure, BoundStmt.parts,
      List.forall_mem_append]
    exact ⟨permits_bindExpr hs condition h.1, permits_bindStmts hs body h.2.1,
      permits_bindOtherwise hs otherwise h.2.2⟩
  | .loop condition body _ _, h => by
    simp only [bindStmt, Noted.notes_bind, Noted.notes_pure, List.append_nil,
      List.append_eq_nil_iff] at h
    simp only [bindStmt, Noted.value_bind, Noted.value_pure, BoundStmt.parts,
      List.forall_mem_append]
    exact ⟨permits_bindExpr hs condition h.1, permits_bindStmts hs body h.2⟩
  | .throw value _, h => by
    simp only [bindStmt, Noted.notes_bind, Noted.notes_pure, List.append_nil] at h
    exact permits_bindExpr hs value h
  | .block body _, h => by
    simp only [bindStmt, Noted.notes_bind, Noted.notes_pure, List.append_nil] at h
    exact permits_bindStmts hs body h
  | .expr e span, h => by
    simp only [bindStmt, Noted.notes_bind, Noted.notes_pure, List.append_nil,
      List.append_eq_nil_iff] at h
    exact permits_bindExpr hs e h.2

theorem permits_bindOtherwise (hs : s.Fits p) {d : Declared} : (o : Otherwise) →
    (s.bindOtherwise d o).notes = [] →
    ∀ x ∈ partsIn (s.bindOtherwise d o).value.1, s.Permits p x
  | .nothing, _ => by simp [bindOtherwise, partsIn]
  | .block body _, h => by
    simp only [bindOtherwise, Noted.notes_bind, Noted.notes_pure, List.append_nil] at h
    exact permits_bindStmts hs body h
  | .branch condition body _ otherwise _, h => by
    simp only [bindOtherwise, Noted.notes_bind, Noted.notes_pure, List.append_nil,
      List.append_eq_nil_iff] at h
    simp only [bindOtherwise, Noted.value_bind, Noted.value_pure, partsIn, BoundStmt.parts,
      List.append_nil, List.forall_mem_append]
    exact ⟨permits_bindExpr hs condition h.1, permits_bindStmts hs body h.2.1,
      permits_bindOtherwise hs otherwise h.2.2⟩

/-- **All expressions of bound statements follow the rule**, if nothing is noted about them. -/
theorem permits_bindStmts (hs : s.Fits p) {d : Declared} : (stmts : List Stmt) →
    (s.bindStmts d stmts).notes = [] →
    ∀ x ∈ partsIn (s.bindStmts d stmts).value.1, s.Permits p x
  | [], _ => by simp [bindStmts, partsIn]
  | first :: rest, h => by
    simp only [bindStmts, Noted.notes_bind, Noted.notes_pure, List.append_nil,
      List.append_eq_nil_iff] at h
    simp only [bindStmts, Noted.value_bind, Noted.value_pure, partsIn, List.forall_mem_append]
    exact ⟨permits_bindStmt hs first h.1, permits_bindStmts hs rest h.2⟩

end

end Surroundings

/-! ## Programs -/

/-- **All expressions of an accepted program follow the rule.** -/
theorem permits_of_bind {u : CompileUnit} {refs : List String} {p : BoundProgram}
    (h : bind u refs = .ok p) {ci mi : Nat} {m : BoundMethod} (hm : p.method? ci mi = some m) :
    ∀ e ∈ partsIn m.body, p.Permits ci m.isStatic e := by
  rw [method?_of_bind h, Option.map_eq_some_iff] at hm
  obtain ⟨t, ht, rfl⟩ := hm
  have hclean := (accepted_of_bind h ht).bodyClean
  simp only [Site.bodyNoted, Surroundings.bindBody, Noted.notes_bind, Noted.notes_pure,
    List.append_nil] at hclean
  have hbody := Surroundings.permits_bindStmts (fits_of_bind h ht) t.statements hclean
  obtain ⟨c, decl, -, -, rfl⟩ := site?_eq_some ht
  exact hbody

end Dossier.Script
