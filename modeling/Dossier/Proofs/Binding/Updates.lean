import Dossier.Proofs.Binding.Accepted

/-!
# Operators of assignments

An assignment of bound code can carry any binary operator.  One that the binder has made carries
that of an assignment operator of the language, or none (`updates_of_bind`).

* `BoundStmt.updates` and `updatesIn` list what the assignments of code carry, at every depth.
-/

set_option autoImplicit false

namespace Dossier.Script

mutual

/-- What the assignments of a statement carry, at every depth. -/
def BoundStmt.updates : BoundStmt → List (Option BinaryOp)
  | .assign _ _ op _ => [op]
  | .branch _ body otherwise => updatesIn body ++ updatesIn otherwise
  | .loop _ body => updatesIn body
  | .block body => updatesIn body
  | _ => []

/-- What the assignments of statements carry, at every depth. -/
def updatesIn : List BoundStmt → List (Option BinaryOp)
  | [] => []
  | s :: rest => s.updates ++ updatesIn rest

end

/-- An assignment of the language can carry this. -/
def IsUpdate (op : Option BinaryOp) : Prop := ∃ assign : AssignOp, op = assign.binary?

namespace Surroundings

variable {s : Surroundings}

theorem updates_bindAssign {scopes : Scopes} {op : AssignOp} {target value : Expr} :
    ∀ x ∈ (s.bindAssign scopes op target value).value.updates, IsUpdate x := by
  cases target with
  | name n =>
    simp only [bindAssign, Noted.value_bind]
    cases scopes.find? n.text with
    | some l => simpa [BoundStmt.updates] using ⟨op, rfl⟩
    | none => simp [BoundStmt.updates]
  | _ => simp [bindAssign, BoundStmt.updates]

theorem updates_bindGiveBack {scopes : Scopes} {value : Option Expr} {span : Text.Span} :
    ∀ x ∈ (s.bindGiveBack scopes value span).value.updates, IsUpdate x := by
  unfold bindGiveBack
  split <;> simp [BoundStmt.updates]

mutual

theorem updates_bindStmt {d : Declared} :
    (stmt : Stmt) → ∀ x ∈ (s.bindStmt d stmt).value.1.updates, IsUpdate x
  | .declare _ _ _ _ => by simp [bindStmt, bindDeclare, BoundStmt.updates]
  | .assign _ _ _ _ => updates_bindAssign
  | .giveBack _ _ => updates_bindGiveBack
  | .branch _ body _ otherwise _ => by
    simp only [bindStmt, Noted.value_bind, Noted.value_pure, BoundStmt.updates,
      List.forall_mem_append]
    exact ⟨updates_bindStmts body, updates_bindOtherwise otherwise⟩
  | .loop _ body _ _ => updates_bindStmts body
  | .throw _ _ => by simp [bindStmt, BoundStmt.updates]
  | .block body _ => updates_bindStmts body
  | .expr _ _ => by simp [bindStmt, BoundStmt.updates]

theorem updates_bindOtherwise {d : Declared} :
    (o : Otherwise) → ∀ x ∈ updatesIn (s.bindOtherwise d o).value.1, IsUpdate x
  | .nothing => by simp [bindOtherwise, updatesIn]
  | .block body _ => updates_bindStmts body
  | .branch _ body _ otherwise _ => by
    simp only [bindOtherwise, Noted.value_bind, Noted.value_pure, updatesIn, BoundStmt.updates,
      List.append_nil, List.forall_mem_append]
    exact ⟨updates_bindStmts body, updates_bindOtherwise otherwise⟩

/-- **Bound assignments carry the operators of the language.** -/
theorem updates_bindStmts {d : Declared} :
    (stmts : List Stmt) → ∀ x ∈ updatesIn (s.bindStmts d stmts).value.1, IsUpdate x
  | [] => by simp [bindStmts, updatesIn]
  | first :: rest => by
    simp only [bindStmts, Noted.value_bind, Noted.value_pure, updatesIn, List.forall_mem_append]
    exact ⟨updates_bindStmt first, updates_bindStmts rest⟩

end

end Surroundings

/-- **All assignments of an accepted program carry the operators of the language.** -/
theorem updates_of_bind {u : CompileUnit} {refs : List String} {p : BoundProgram}
    (h : bind u refs = .ok p) {ci mi : Nat} {m : BoundMethod} (hm : p.method? ci mi = some m) :
    ∀ op ∈ updatesIn m.body, IsUpdate op := by
  rw [method?_of_bind h, Option.map_eq_some_iff] at hm
  obtain ⟨t, -, rfl⟩ := hm
  exact Surroundings.updates_bindStmts t.statements

end Dossier.Script
