import Dossier.Proofs.Run.Ends

/-!
# Code that always exits

`anyAlwaysExits` reads off the statements that no run goes on behind them: one of them gives back a
value or throws one, or is a branch that exits on both sides, or a loop whose condition is the literal
`true`.

`Exits fuel` says that this is so for the functions that run statements; there is one lemma for each,
and `exits` joins them by induction on the fuel.  It asks nothing of the program.
-/

set_option autoImplicit false

namespace Dossier.Script

/-- The method has ended. -/
def HasEnded (outcome : Slots × Flow) : Prop := ∃ v, outcome.2 = .result v

/-- Where the run has a result, the method has ended. -/
abbrev EndsMethod (x : Run (Slots × Flow)) : Prop := Ends x HasEnded fun _ ↦ True

theorem ends_any {α : Type} (x : Run α) : Ends x (fun _ ↦ True) fun _ ↦ True := by
  intro w
  cases x w <;> trivial

/-- The only loop that always exits is one whose condition is the literal `true`. -/
theorem eq_true_of_alwaysExits {c : BoundExpr} {body : List BoundStmt}
    (h : (BoundStmt.loop c body).alwaysExits = true) : c = .const (.bool true) := by
  cases c with
  | const v =>
    cases v with
    | bool b =>
      cases b with
      | true => rfl
      | false => cases h
    | _ => cases h
  | _ => cases h

/-- What is proved of code that always exits, at a fuel. -/
structure Exits (fuel : Nat) : Prop where
  execute : ∀ {a : Activation} {slots : Slots} {s : BoundStmt}, s.alwaysExits = true →
    EndsMethod (Script.execute fuel a slots s)
  executeAll : ∀ {a : Activation} {slots : Slots} {ss : List BoundStmt},
    anyAlwaysExits ss = true → EndsMethod (Script.executeAll fuel a slots ss)
  executeLoop : ∀ {a : Activation} {slots : Slots} {body : List BoundStmt},
    EndsMethod (Script.executeLoop fuel a slots (.const (.bool true)) body)

namespace Exits

variable {fuel : Nat} {a : Activation} {slots : Slots}

theorem zero : Exits 0 where
  execute _ := .throw trivial
  executeAll _ := .throw trivial
  executeLoop := .throw trivial

theorem execute_succ (ih : Exits fuel) {s : BoundStmt} (h : s.alwaysExits = true) :
    EndsMethod (Script.execute (fuel + 1) a slots s) := by
  cases s with
  | giveBack value =>
    cases value with
    | none => exact .pure ⟨_, rfl⟩
    | some e => exact (ends_any _).bind fun v _ ↦ .pure ⟨v, rfl⟩
  | throw e => exact (ends_any _).bind fun v _ ↦ .throw trivial
  | block body =>
    rw [BoundStmt.alwaysExits] at h
    exact ih.executeAll h
  | branch c body otherwise =>
    rw [BoundStmt.alwaysExits, Bool.and_eq_true] at h
    refine (ends_any _).bind fun b _ ↦ ?_
    cases b with
    | true => exact ih.executeAll h.1
    | false => exact ih.executeAll h.2
  | loop c body =>
    obtain rfl := eq_true_of_alwaysExits h
    exact ih.executeLoop
  | _ => cases h

theorem executeAll_succ (ih : Exits fuel) {ss : List BoundStmt} (h : anyAlwaysExits ss = true) :
    EndsMethod (Script.executeAll (fuel + 1) a slots ss) := by
  cases ss with
  | nil => cases h
  | cons s rest =>
    rw [anyAlwaysExits, Bool.or_eq_true] at h
    rcases h with hfirst | hrest
    · refine (ih.execute hfirst).bind fun outcome hended ↦ ?_
      obtain ⟨slots', flow⟩ := outcome
      obtain ⟨v, rfl⟩ := hended
      exact .pure ⟨v, rfl⟩
    · refine (ends_any _).bind fun outcome _ ↦ ?_
      obtain ⟨slots', flow⟩ := outcome
      cases flow with
      | next => exact ih.executeAll hrest
      | result v => exact .pure ⟨v, rfl⟩

/-- A loop whose condition is always true is left by its body only. -/
theorem executeLoop_succ (ih : Exits fuel) {body : List BoundStmt} :
    EndsMethod (Script.executeLoop (fuel + 1) a slots (.const (.bool true)) body) := by
  have htrue : Ends (evaluateTruth fuel a slots (.const (.bool true))) (· = true) fun _ ↦ True := by
    cases fuel with
    | zero => exact .throw trivial
    | succ fuel =>
      cases fuel with
      | zero => exact .throw trivial
      | succ fuel => exact .pure rfl
  refine htrue.bind fun b hb ↦ ?_
  subst hb
  refine (ends_any _).bind fun outcome _ ↦ ?_
  obtain ⟨slots', flow⟩ := outcome
  cases flow with
  | next => exact ih.executeLoop
  | result v => exact .pure ⟨v, rfl⟩

end Exits

/-- **No run goes on behind code that always exits.** -/
theorem exits (fuel : Nat) : Exits fuel := by
  induction fuel with
  | zero => exact .zero
  | succ fuel ih =>
    exact {
      execute := ih.execute_succ
      executeAll := ih.executeAll_succ
      executeLoop := ih.executeLoop_succ }

end Dossier.Script
