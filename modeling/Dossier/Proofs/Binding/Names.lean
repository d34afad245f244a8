import Dossier.Proofs.Binding.Slots
import Dossier.Proofs.Parse.StmtGrammar

/-!
# The names of a tree

The names that a body looks up in its scopes are all in its text, and nothing else that is in scope
makes a difference to the body.

* `Expr.names` and `Stmt.names` collect these names.
* `StmtPhrase.Derives.names` says that they are tokens of what the tree was read from.
* `Agree words d d'` says that the same words mean the same, and that as many slots are taken.
  Binding a statement whose names are among the words yields the same from both, and what is declared
  after it agrees again (`Surroundings.alike_bindStmt`).
-/

set_option autoImplicit false

namespace Dossier.Script

/-! ## Names -/

mutual

/-- The names that an expression looks up among the locals, and maybe some more. -/
def Expr.names : Expr → List String
  | .literal _ _ => []
  | .name n => [n.text]
  | .self _ => []
  | .unary _ e _ => e.names
  | .binary _ l r _ => l.names ++ r.names
  | .member e _ _ => e.names
  | .call e args _ => e.names ++ namesOfArgs args

/-- The same of arguments. -/
def namesOfArgs : List Expr → List String
  | [] => []
  | arg :: args => arg.names ++ namesOfArgs args

end

/-- The same of an expression that need not be there. -/
def namesOfOption : Option Expr → List String
  | none => []
  | some e => e.names

mutual

/-- The same of a statement, with the names that it declares. -/
def Stmt.names : Stmt → List String
  | .declare name _ init _ => name.text :: namesOfOption init
  | .assign _ target value _ => target.names ++ value.names
  | .giveBack value _ => namesOfOption value
  | .branch c body _ o _ => c.names ++ (namesOfBody body ++ o.names)
  | .loop c body _ _ => c.names ++ namesOfBody body
  | .throw e _ => e.names
  | .block body _ => namesOfBody body
  | .expr e _ => e.names

/-- The same of what follows the block of a branch. -/
def Otherwise.names : Otherwise → List String
  | .nothing => []
  | .block body _ => namesOfBody body
  | .branch c body _ o _ => c.names ++ (namesOfBody body ++ o.names)

/-- The same of statements in a row. -/
def namesOfBody : List Stmt → List String
  | [] => []
  | s :: rest => s.names ++ namesOfBody rest

end

/-! ## Names and tokens -/

/-- The words of the tokens: names, and what string literals stand for. -/
def Token.word? (t : Token) : Option String :=
  match t.kind with
  | .name text | .string text => some text
  | _ => none

/-- The words of some tokens, in their order. -/
def wordsOf (ts : List Token) : List String := ts.filterMap Token.word?

@[simp] theorem wordsOf_nil : wordsOf [] = [] := rfl

@[simp] theorem wordsOf_append (ts us : List Token) : wordsOf (ts ++ us) = wordsOf ts ++ wordsOf us :=
  List.filterMap_append

@[simp] theorem wordsOf_name (text : String) (span : Text.Span) (ts : List Token) :
    wordsOf (⟨.name text, span⟩ :: ts) = text :: wordsOf ts := rfl

@[simp] theorem wordsOf_symbol (mark : Symbol) (span : Text.Span) (ts : List Token) :
    wordsOf (⟨.symbol mark, span⟩ :: ts) = wordsOf ts := rfl

@[simp] theorem wordsOf_keyword (word : Keyword) (span : Text.Span) (ts : List Token) :
    wordsOf (⟨.keyword word, span⟩ :: ts) = wordsOf ts := rfl

theorem Atom.names {t : Token} {e : Expr} (h : Atom t e) : e.names ⊆ wordsOf [t] := by
  cases h <;> simp [Expr.names]

theorem append_subset_append {as bs cs ds : List String} (h : as ⊆ cs) (h' : bs ⊆ ds) :
    as ++ bs ⊆ cs ++ ds :=
  List.append_subset.2 ⟨List.subset_append_of_subset_left _ h, List.subset_append_of_subset_right _ h'⟩

/-- The names of what a phrase is. -/
def ExprPhrase.names : ExprPhrase → List String
  | operators _ e | signed e | suffixed e | operand e => e.names
  | arguments args | moreArguments args => namesOfArgs args

/-- **The names of an expression are words of its tokens.** -/
theorem ExprPhrase.Derives.names {p : ExprPhrase} {ts : List Token} (h : p.Derives ts) :
    p.names ⊆ wordsOf ts := by
  induction h with
  | atom h => exact h.names
  | operand _ ih | suffixed _ ih | signed _ ih | tighter _ ih => exact ih
  | group _ _ _ ih => simpa [ExprPhrase.names] using ih
  | noArguments | noMoreArguments => exact List.nil_subset _
  | call _ _ _ _ ih ih' => simpa [ExprPhrase.names, Expr.names] using append_subset_append ih ih'
  | member _ _ _ ih =>
    rw [wordsOf_append]
    exact List.subset_append_of_subset_left _ ih
  | unary _ _ _ ih => exact ih
  | binary _ _ _ _ ih ih' => simpa [ExprPhrase.names, Expr.names] using append_subset_append ih ih'
  | arguments _ _ ih ih' => simpa [ExprPhrase.names, namesOfArgs] using append_subset_append ih ih'
  | moreArguments _ _ _ ih ih' =>
    simpa [ExprPhrase.names, namesOfArgs] using append_subset_append ih ih'

theorem Expr.Derives.names {e : Expr} {ts : List Token} (h : e.Derives ts) :
    e.names ⊆ wordsOf ts := ExprPhrase.Derives.names h

theorem InitDerives.names {init : Option Expr} {ts : List Token} (h : InitDerives init ts) :
    namesOfOption init ⊆ wordsOf ts := by
  cases h with
  | none => exact List.nil_subset _
  | some _ h => exact h.names

/-- The names of what a phrase is. -/
def StmtPhrase.names : StmtPhrase → List String
  | statement _ s => s.names
  | statements _ body => namesOfBody body
  | block b => namesOfBody b.body
  | branch b => b.condition.names ++ (namesOfBody b.block.body ++ b.otherwise.names)
  | otherwise o => o.names

/-- **The names of a statement are words of its tokens.** -/
theorem StmtPhrase.Derives.names {p : StmtPhrase} {ts : List Token} (h : p.Derives ts) :
    p.names ⊆ wordsOf ts := by
  induction h with
  | untyped _ _ name h _ =>
    simp only [wordsOf_keyword, wordsOf_name, wordsOf_symbol, wordsOf_append]
    exact List.cons_subset_cons _ (List.subset_append_of_subset_left _ h.names)
  | typed name _ hinit _ =>
    simp only [wordsOf_name, wordsOf_append]
    refine List.subset_append_of_subset_right _ (List.cons_subset_cons _ ?_)
    exact List.subset_append_of_subset_left _ hinit.names
  | giveBackNothing => exact List.nil_subset _
  | giveBack _ h _ | throwing _ h _ =>
    rw [wordsOf_keyword, wordsOf_append]
    exact List.subset_append_of_subset_left _ h.names
  | expr h _ =>
    rw [wordsOf_append]
    exact List.subset_append_of_subset_left _ h.names
  | assign _ _ h h' _ =>
    simp only [wordsOf_append, wordsOf_symbol]
    exact append_subset_append h.names (List.subset_append_of_subset_left _ h'.names)
  | ofBranch _ ih | ofBlock _ ih => exact ih
  | loop _ _ _ h _ ih =>
    simp only [wordsOf_keyword, wordsOf_symbol, wordsOf_append]
    exact append_subset_append h.names ih
  | branch _ _ _ h _ _ ih ih' =>
    simp only [wordsOf_keyword, wordsOf_symbol, wordsOf_append]
    exact append_subset_append h.names (append_subset_append ih ih')
  | nothing | nil => exact List.nil_subset _
  | otherwiseBlock _ _ ih | otherwiseBranch _ _ ih => exact ih
  | block _ _ _ ih =>
    rw [wordsOf_symbol, wordsOf_append]
    exact List.subset_append_of_subset_left _ ih
  | single _ ih => simpa [StmtPhrase.names, namesOfBody] using ih
  | cons _ _ ih ih' =>
    rw [wordsOf_append]
    exact append_subset_append ih ih'

/-! ## What is in scope -/

/-- A name that was declared last hides all others of that name. -/
theorem Scopes.find?_declare {scopes : Scopes} (h : scopes ≠ []) (name : String) (l : Local)
    (w : String) :
    (scopes.declare name l).find? w = if w = name then some l else scopes.find? w := by
  obtain ⟨scope, outer, rfl⟩ := List.exists_cons_of_ne_nil h
  simp only [Scopes.declare, Scopes.find?, List.findSome?_cons, List.lookup_cons]
  by_cases hw : w = name
  · simp [hw]
  · simp [hw, beq_eq_false_iff_ne.2 hw]

/-- The words mean the same, and as many slots are taken. -/
structure Agree (words : List String) (d d' : Declared) : Prop where
  frameSize : d.frameSize = d'.frameSize
  ne_nil : d.scopes ≠ []
  ne_nil' : d'.scopes ≠ []
  find : ∀ w ∈ words, d.scopes.find? w = d'.scopes.find? w

namespace Agree

variable {words : List String} {d d' e e' : Declared}

theorem enter (h : Agree words d d') : Agree words d.enter d'.enter where
  frameSize := h.frameSize
  ne_nil := List.cons_ne_nil _ _
  ne_nil' := List.cons_ne_nil _ _
  find := h.find

theorem leaveTo (h : Agree words d d') (he : Agree words e e') :
    Agree words (e.leaveTo d) (e'.leaveTo d') where
  frameSize := he.frameSize
  ne_nil := h.ne_nil
  ne_nil' := h.ne_nil'
  find := h.find

theorem declare (h : Agree words d d') (name : String) (type : Option ValueType) :
    Agree words (d.declare name type) (d'.declare name type) where
  frameSize := congrArg (· + 1) h.frameSize
  ne_nil := Scopes.declare_ne_nil h.ne_nil _ _
  ne_nil' := Scopes.declare_ne_nil h.ne_nil' _ _
  find w hw := by
    rw [Declared.declare, Declared.declare, Scopes.find?_declare h.ne_nil,
      Scopes.find?_declare h.ne_nil', h.find w hw, h.frameSize]

end Agree

/-! ## Binding expressions -/

/-- A path starts with one of the names. -/
theorem Expr.names_of_path? : (e : Expr) → {path : List Name} → e.path? = some path →
    ∃ first rest, path = first :: rest ∧ first.text ∈ e.names
  | .name n, _, h => by
    cases h
    exact ⟨n, [], rfl, List.mem_cons_self ..⟩
  | .member base m _, _, h => by
    obtain ⟨path, hpath, rfl⟩ := Option.map_eq_some_iff.1 h
    obtain ⟨first, rest, rfl, hmem⟩ := base.names_of_path? hpath
    exact ⟨first, rest ++ [m], rfl, hmem⟩

namespace Surroundings

variable {scopes scopes' : Scopes}

theorem callExpr_congr (s : Surroundings) {callee : Expr}
    (h : ∀ n ∈ callee.names, scopes.find? n = scopes'.find? n) (args : List BoundExpr)
    (span : Text.Span) : s.callExpr scopes callee args span = s.callExpr scopes' callee args span := by
  unfold callExpr
  split
  · rfl
  · rfl
  · rename_i base n _ _
    split
    · rename_i path hpath
      obtain ⟨first, rest, rfl, hmem⟩ := base.names_of_path? hpath
      rw [callPath, callPath, h _ hmem]
    · rfl
  · rfl

mutual

/-- **What is bound depends on the names alone.** -/
theorem bindExpr_congr (s : Surroundings) : (e : Expr) →
    (∀ n ∈ e.names, scopes.find? n = scopes'.find? n) → s.bindExpr scopes e = s.bindExpr scopes' e
  | .literal _ _, _ => rfl
  | .name n, h => by rw [bindExpr, bindExpr, h n.text (List.mem_singleton_self _)]
  | .self _, _ => rfl
  | .unary _ e _, h => by rw [bindExpr, bindExpr, bindExpr_congr s e h]
  | .binary _ l r _, h => by
    obtain ⟨hl, hr⟩ := List.forall_mem_append.1 h
    rw [bindExpr, bindExpr, bindExpr_congr s l hl, bindExpr_congr s r hr]
  | .member _ _ _, _ => rfl
  | .call callee args _, h => by
    obtain ⟨hcallee, hargs⟩ := List.forall_mem_append.1 h
    rw [bindExpr, bindExpr, bindArgs_congr s args hargs]
    simp only [callExpr_congr s hcallee]

theorem bindArgs_congr (s : Surroundings) : (args : List Expr) →
    (∀ n ∈ namesOfArgs args, scopes.find? n = scopes'.find? n) →
      s.bindArgs scopes args = s.bindArgs scopes' args
  | [], _ => rfl
  | arg :: args, h => by
    obtain ⟨harg, hargs⟩ := List.forall_mem_append.1 h
    rw [bindArgs, bindArgs, bindExpr_congr s arg harg, bindArgs_congr s args hargs]

end

theorem bindExpr?_congr (s : Surroundings) {e : Option Expr}
    (h : ∀ n ∈ namesOfOption e, scopes.find? n = scopes'.find? n) :
    s.bindExpr? scopes e = s.bindExpr? scopes' e := by
  cases e with
  | none => rfl
  | some e => rw [bindExpr?, bindExpr?, s.bindExpr_congr e h]

/-! ## Binding statements -/

/-- The same is bound and noted, and what is declared afterwards agrees. -/
structure Alike {α : Type} (words : List String) (x y : Found (α × Declared)) : Prop where
  value : x.value.1 = y.value.1
  notes : x.notes = y.notes
  declared : Agree words x.value.2 y.value.2

namespace Alike

variable {α β : Type} {words : List String}

protected theorem pure {d d' : Declared} (a : α) (h : Agree words d d') :
    Alike words (pure (a, d)) (pure (a, d')) := ⟨rfl, rfl, h⟩

protected theorem bind {x y : Found (α × Declared)} {f g : α × Declared → Found (β × Declared)}
    (h : Alike words x y) (hf : ∀ a d d', Agree words d d' → Alike words (f (a, d)) (g (a, d'))) :
    Alike words (x >>= f) (y >>= g) := by
  obtain ⟨⟨a, d⟩, notes⟩ := x
  obtain ⟨⟨a', d'⟩, notes'⟩ := y
  obtain ⟨ha, hnotes, hd⟩ := h
  obtain rfl : a = a' := ha
  obtain ⟨hvalue, hmore, hdeclared⟩ := hf a d d' hd
  exact ⟨hvalue, congrArg₂ (· ++ ·) hnotes hmore, hdeclared⟩

/-- After a step that is the same. -/
theorem after {γ : Type} (x : Found γ) {f g : γ → Found (β × Declared)}
    (hf : ∀ c, Alike words (f c) (g c)) : Alike words (x >>= f) (x >>= g) := by
  obtain ⟨hvalue, hmore, hdeclared⟩ := hf x.value
  exact ⟨hvalue, congrArg (x.notes ++ ·) hmore, hdeclared⟩

end Alike

variable {words : List String} {d d' : Declared}

theorem Agree.find_of_subset {names : List String} (h : Agree words d d') (hnames : names ⊆ words) :
    ∀ n ∈ names, d.scopes.find? n = d'.scopes.find? n := fun n hn ↦ h.find n (hnames hn)

theorem alike_bindDeclare (s : Surroundings) (h : Agree words d d') {name : Name}
    {type : Option TypeName} {init : Option Expr}
    (hnames : name.text :: namesOfOption init ⊆ words) :
    Alike words (s.bindDeclare d name type init) (s.bindDeclare d' name type init) := by
  obtain ⟨hname, hinit⟩ := List.cons_subset.1 hnames
  rw [bindDeclare, bindDeclare, s.bindExpr?_congr (Agree.find_of_subset h hinit), h.find _ hname,
    h.frameSize]
  exact .after _ fun type ↦ .after _ fun init ↦ .after _ fun _ ↦ .pure _ (h.declare _ _)

theorem bindAssign_congr (s : Surroundings) (h : Agree words d d') {op : AssignOp}
    {target value : Expr} (hnames : target.names ++ value.names ⊆ words) :
    s.bindAssign d.scopes op target value = s.bindAssign d'.scopes op target value := by
  obtain ⟨htarget, hvalue⟩ := List.append_subset.1 hnames
  rw [bindAssign, bindAssign, s.bindExpr_congr value (Agree.find_of_subset h hvalue)]
  cases target with
  | name n =>
    have hn := h.find n.text (htarget (List.mem_cons_self ..))
    simp only [hn]
  | _ => rfl

theorem bindGiveBack_congr (s : Surroundings) (h : Agree words d d') {value : Option Expr}
    (hnames : namesOfOption value ⊆ words) (span : Text.Span) :
    s.bindGiveBack d.scopes value span = s.bindGiveBack d'.scopes value span := by
  unfold bindGiveBack
  split
  · rfl
  · rfl
  · rw [s.bindExpr?_congr (Agree.find_of_subset h hnames)]

mutual

/-- **What is bound in a statement depends on its names alone**, and so does what is declared after
it. -/
theorem alike_bindStmt (s : Surroundings) : (stmt : Stmt) → {d d' : Declared} → Agree words d d' →
    stmt.names ⊆ words → Alike words (s.bindStmt d stmt) (s.bindStmt d' stmt)
  | .declare _ _ _ _, _, _, h, hnames => s.alike_bindDeclare h hnames
  | .assign _ _ _ _, _, _, h, hnames => by
    rw [bindStmt, bindStmt, s.bindAssign_congr h hnames]
    exact .after _ fun b ↦ .pure b h
  | .giveBack _ _, _, _, h, hnames => by
    rw [bindStmt, bindStmt, s.bindGiveBack_congr h hnames]
    exact .after _ fun b ↦ .pure b h
  | .branch c body _ o _, _, _, h, hnames => by
    obtain ⟨hc, hnames⟩ := List.append_subset.1 hnames
    obtain ⟨hbody, ho⟩ := List.append_subset.1 hnames
    rw [bindStmt, bindStmt, s.bindExpr_congr c (Agree.find_of_subset h hc)]
    refine .after _ fun c ↦ (alike_bindStmts s body h.enter hbody).bind fun b e e' he ↦ ?_
    exact (alike_bindOtherwise s o (h.leaveTo he) ho).bind fun o e e' he ↦ .pure _ he
  | .loop c body _ _, _, _, h, hnames => by
    obtain ⟨hc, hbody⟩ := List.append_subset.1 hnames
    rw [bindStmt, bindStmt, s.bindExpr_congr c (Agree.find_of_subset h hc)]
    refine .after _ fun c ↦ (alike_bindStmts s body h.enter hbody).bind fun b e e' he ↦ ?_
    exact .pure _ (h.leaveTo he)
  | .throw e _, _, _, h, hnames => by
    rw [bindStmt, bindStmt, s.bindExpr_congr e (Agree.find_of_subset h hnames)]
    exact .after _ fun b ↦ .pure _ h
  | .block body _, _, _, h, hnames => by
    rw [bindStmt, bindStmt]
    exact (alike_bindStmts s body h.enter hnames).bind fun b e e' he ↦ .pure _ (h.leaveTo he)
  | .expr e _, _, _, h, hnames => by
    rw [bindStmt, bindStmt, s.bindExpr_congr e (Agree.find_of_subset h hnames)]
    exact .after _ fun _ ↦ .after _ fun b ↦ .pure _ h

theorem alike_bindOtherwise (s : Surroundings) : (o : Otherwise) → {d d' : Declared} →
    Agree words d d' → o.names ⊆ words → Alike words (s.bindOtherwise d o) (s.bindOtherwise d' o)
  | .nothing, _, _, h, _ => .pure _ h
  | .block body _, _, _, h, hnames => by
    rw [bindOtherwise, bindOtherwise]
    exact (alike_bindStmts s body h.enter hnames).bind fun b e e' he ↦ .pure _ (h.leaveTo he)
  | .branch c body _ o _, _, _, h, hnames => by
    obtain ⟨hc, hnames⟩ := List.append_subset.1 hnames
    obtain ⟨hbody, ho⟩ := List.append_subset.1 hnames
    rw [bindOtherwise, bindOtherwise, s.bindExpr_congr c (Agree.find_of_subset h hc)]
    refine .after _ fun c ↦ (alike_bindStmts s body h.enter hbody).bind fun b e e' he ↦ ?_
    exact (alike_bindOtherwise s o (h.leaveTo he) ho).bind fun o e e' he ↦ .pure _ he

theorem alike_bindStmts (s : Surroundings) : (body : List Stmt) → {d d' : Declared} →
    Agree words d d' → namesOfBody body ⊆ words →
      Alike words (s.bindStmts d body) (s.bindStmts d' body)
  | [], _, _, h, _ => .pure _ h
  | stmt :: rest, _, _, h, hnames => by
    obtain ⟨hstmt, hrest⟩ := List.append_subset.1 hnames
    rw [bindStmts, bindStmts]
    refine (alike_bindStmt s stmt h hstmt).bind fun b e e' he ↦ ?_
    exact (alike_bindStmts s rest he hrest).bind fun bs e e' he ↦ .pure _ he

end

end Surroundings

end Dossier.Script
