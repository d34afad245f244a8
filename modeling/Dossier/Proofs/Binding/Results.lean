import Dossier.Proofs.Binding.Accepted

/-!
# Results of methods

A method that owes a result leaves its body by giving one back.

* `BoundStmt.nested` and `nestedIn` list the statements of code, at every depth.
* `BoundMethod.GivesResults` is what binding promises of such a method (`givesResults_of_bind`):
  wherever its body gives something back, it gives back a value, and `anyAlwaysExits` holds of the
  body, so that one of its statements always leaves it.
-/

set_option autoImplicit false

namespace Dossier.Script

/-! ## The statements of code -/

mutual

/-- The statement and all statements within it. -/
def BoundStmt.nested : BoundStmt → List BoundStmt
  | .declare i type init => [.declare i type init]
  | .assign i type op value => [.assign i type op value]
  | .giveBack value => [.giveBack value]
  | .branch condition body otherwise =>
    .branch condition body otherwise :: (nestedIn body ++ nestedIn otherwise)
  | .loop condition body => .loop condition body :: nestedIn body
  | .throw value => [.throw value]
  | .block body => .block body :: nestedIn body
  | .expr e => [.expr e]

/-- The statements and all statements within them. -/
def nestedIn : List BoundStmt → List BoundStmt
  | [] => []
  | s :: rest => s.nested ++ nestedIn rest

end

theorem BoundStmt.mem_nested (s : BoundStmt) : s ∈ s.nested := by
  cases s <;> simp [nested]

/-! ## Values that are given back -/

/-- If the statement gives something back, it gives back a value. -/
def BoundStmt.GivesValue : BoundStmt → Prop
  | .giveBack value => value.isSome
  | _ => True

namespace Surroundings

variable {s : Surroundings}

theorem givesValue_bindAssign {scopes : Scopes} {op : AssignOp} {target value : Expr} :
    ∀ b ∈ (s.bindAssign scopes op target value).value.nested, b.GivesValue := by
  cases target with
  | name n =>
    simp only [bindAssign, Noted.value_bind]
    cases scopes.find? n.text <;> simp [BoundStmt.nested, BoundStmt.GivesValue]
  | _ => simp [bindAssign, BoundStmt.nested, BoundStmt.GivesValue]

/-- In a method that owes a result, a statement that gives back nothing is noted. -/
theorem givesValue_bindGiveBack (howed : s.method.returns ≠ .void) {scopes : Scopes}
    {value : Option Expr} {span : Text.Span} (h : (s.bindGiveBack scopes value span).notes = []) :
    ∀ b ∈ (s.bindGiveBack scopes value span).value.nested, b.GivesValue := by
  have hreturns : (s.method.returns == .void) = false := beq_eq_false_iff_ne.2 howed
  cases value with
  | none => simp [bindGiveBack, hreturns, found] at h
  | some e =>
    simp [bindGiveBack, hreturns, bindExpr?, BoundStmt.nested, BoundStmt.GivesValue]

mutual

theorem givesValue_bindStmt (howed : s.method.returns ≠ .void) {d : Declared} :
    (stmt : Stmt) → (s.bindStmt d stmt).notes = [] →
    ∀ b ∈ (s.bindStmt d stmt).value.1.nested, b.GivesValue
  | .declare _ _ _ _, _ => by
    simp [bindStmt, bindDeclare, BoundStmt.nested, BoundStmt.GivesValue]
  | .assign _ _ _ _, _ => givesValue_bindAssign
  | .giveBack value span, h => by
    simp only [bindStmt, Noted.notes_bind, Noted.notes_pure, List.append_nil] at h
    exact givesValue_bindGiveBack howed h
  | .branch _ body _ otherwise _, h => by
    simp only [bindStmt, Noted.notes_bind, Noted.notes_pure, List.append_nil,
      List.append_eq_nil_iff] at h
    simp only [bindStmt, Noted.value_bind, Noted.value_pure, BoundStmt.nested,
      List.forall_mem_cons, List.forall_mem_append]
    exact ⟨trivial, givesValue_bindStmts howed body h.2.1,
      givesValue_bindOtherwise howed otherwise h.2.2⟩
  | .loop _ body _ _, h => by
    simp only [bindStmt, Noted.notes_bind, Noted.notes_pure, List.append_nil,
      List.append_eq_nil_iff] at h
    exact List.forall_mem_cons.2 ⟨trivial, givesValue_bindStmts howed body h.2⟩
  | .throw _ _, _ => by simp [bindStmt, BoundStmt.nested, BoundStmt.GivesValue]
  | .block body _, h => by
    simp only [bindStmt, Noted.notes_bind, Noted.notes_pure, List.append_nil] at h
    exact List.forall_mem_cons.2 ⟨trivial, givesValue_bindStmts howed body h⟩
  | .expr _ _, _ => by simp [bindStmt, BoundStmt.nested, BoundStmt.GivesValue]

theorem givesValue_bindOtherwise (howed : s.method.returns ≠ .void) {d : Declared} :
    (o : Otherwise) → (s.bindOtherwise d o).notes = [] →
    ∀ b ∈ nestedIn (s.bindOtherwise d o).value.1, b.GivesValue
  | .nothing, _ => by simp [bindOtherwise, nestedIn]
  | .block body _, h => by
    simp only [bindOtherwise, Noted.notes_bind, Noted.notes_pure, List.append_nil] at h
    exact givesValue_bindStmts howed body h
  | .branch _ body _ otherwise _, h => by
    simp only [bindOtherwise, Noted.notes_bind, Noted.notes_pure, List.append_nil,
      List.append_eq_nil_iff] at h
    simp only [bindOtherwise, Noted.value_bind, Noted.value_pure, nestedIn, BoundStmt.nested,
      List.append_nil, List.forall_mem_cons, List.forall_mem_append]
    exact ⟨trivial, givesValue_bindStmts howed body h.2.1,
      givesValue_bindOtherwise howed otherwise h.2.2⟩

/-- **Bound statements give back values**, in a method that owes a result. -/
theorem givesValue_bindStmts (howed : s.method.returns ≠ .void) {d : Declared} :
    (stmts : List Stmt) → (s.bindStmts d stmts).notes = [] →
    ∀ b ∈ nestedIn (s.bindStmts d stmts).value.1, b.GivesValue
  | [], _ => by simp [bindStmts, nestedIn]
  | first :: rest, h => by
    simp only [bindStmts, Noted.notes_bind, Noted.notes_pure, List.append_nil,
      List.append_eq_nil_iff] at h
    simp only [bindStmts, Noted.value_bind, Noted.value_pure, nestedIn, List.forall_mem_append]
    exact ⟨givesValue_bindStmt howed first h.1, givesValue_bindStmts howed rest h.2⟩

end

end Surroundings

/-! ## Methods -/

/-- The method leaves its body by giving back a value. -/
structure BoundMethod.GivesResults (m : BoundMethod) : Prop where
  /-- Whatever is given back is a value. -/
  values : ∀ s ∈ nestedIn m.body, s.GivesValue
  /-- The body is always left by one of its statements. -/
  exits : anyAlwaysExits m.body = true

/-- **Every method of an accepted program that owes a result gives results.** -/
theorem givesResults_of_bind {u : CompileUnit} {refs : List String} {p : BoundProgram}
    (h : bind u refs = .ok p) {ci mi : Nat} {m : BoundMethod} (hm : p.method? ci mi = some m)
    (howed : m.returns ≠ .void) : m.GivesResults := by
  rw [method?_of_bind h, Option.map_eq_some_iff] at hm
  obtain ⟨t, ht, rfl⟩ := hm
  have hacc := accepted_of_bind h ht
  have hclean := hacc.bodyClean
  simp only [Site.bodyNoted, Surroundings.bindBody, Noted.notes_bind, Noted.notes_pure,
    List.append_nil] at hclean
  exact ⟨Surroundings.givesValue_bindStmts howed t.statements hclean, hacc.exits howed⟩

end Dossier.Script
