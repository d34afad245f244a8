import Dossier.Script.Run

/-!
# More fuel changes no end

A run that comes to an end has the same end with more fuel.  `Refines x y` compares a run with one
that may be given more of it: `x` ends as `y` does, or for want of fuel.

`MoreFuel fuel fuel'` says this of all functions of the interpreter, each at the first fuel against
itself at the second; there is one lemma for each function, and `moreFuel` joins them by induction on
the fuel.
-/

set_option autoImplicit false

namespace Dossier.Script

/-- The run ends like the other one, or for want of fuel. -/
def Refines {α : Type} (x y : Run α) : Prop :=
  ∀ w, x w = y w ∨ ∃ w', x w = .error .outOfFuel w'

namespace Refines

variable {α β : Type} {x y : Run α}

protected theorem refl (x : Run α) : Refines x x := fun _ ↦ .inl rfl

theorem outOfFuel (y : Run α) : Refines (throw .outOfFuel) y := fun w ↦ .inr ⟨w, rfl⟩

/-- **A step and what follows it**: each may have more fuel in the other run. -/
protected theorem bind {f g : α → Run β} (h : Refines x y) (hf : ∀ v, Refines (f v) (g v)) :
    Refines (x >>= f) (y >>= g) := by
  intro w
  show EStateM.bind x f w = EStateM.bind y g w ∨ ∃ w', EStateM.bind x f w = .error .outOfFuel w'
  rw [EStateM.bind, EStateM.bind]
  rcases h w with hsame | ⟨w', hout⟩
  · rw [hsame]
    cases y w with
    | ok v w' => exact hf v w'
    | error halt w' => exact .inl rfl
  · rw [hout]
    exact .inr ⟨w', rfl⟩

/-- What follows a step has more fuel in the other run. -/
theorem bind_right {f g : α → Run β} (x : Run α) (hf : ∀ v, Refines (f v) (g v)) :
    Refines (x >>= f) (x >>= g) := Refines.bind (.refl x) hf

/-- A step has more fuel in the other run, and what follows it takes none. -/
theorem bind_left (h : Refines x y) (f : α → Run β) : Refines (x >>= f) (y >>= f) :=
  h.bind fun v ↦ .refl (f v)

/-- **An end that is reached is the end.** -/
theorem eq_of_ok (h : Refines x y) {w w' : Machine} {v : α} (hx : x w = .ok v w') :
    y w = .ok v w' := by
  rcases h w with hsame | ⟨w'', hout⟩
  · exact hsame.symm.trans hx
  · cases hx.symm.trans hout

theorem eq_of_error (h : Refines x y) {w w' : Machine} {halt : Halt} (hhalt : halt ≠ .outOfFuel)
    (hx : x w = .error halt w') : y w = .error halt w' := by
  rcases h w with hsame | ⟨w'', hout⟩
  · exact hsame.symm.trans hx
  · cases hx.symm.trans hout
    exact absurd rfl hhalt

end Refines

/-- What is proved of the interpreter at two fuels. -/
structure MoreFuel (fuel fuel' : Nat) : Prop where
  evaluate : ∀ a slots e, Refines (Script.evaluate fuel a slots e) (Script.evaluate fuel' a slots e)
  evaluateTruth : ∀ a slots e,
    Refines (Script.evaluateTruth fuel a slots e) (Script.evaluateTruth fuel' a slots e)
  evaluateArgs : ∀ a slots es,
    Refines (Script.evaluateArgs fuel a slots es) (Script.evaluateArgs fuel' a slots es)
  callMethod : ∀ p ci mi self args,
    Refines (Script.callMethod fuel p ci mi self args) (Script.callMethod fuel' p ci mi self args)
  runMethod : ∀ a args, Refines (Script.runMethod fuel a args) (Script.runMethod fuel' a args)
  execute : ∀ a slots s, Refines (Script.execute fuel a slots s) (Script.execute fuel' a slots s)
  executeAll : ∀ a slots ss,
    Refines (Script.executeAll fuel a slots ss) (Script.executeAll fuel' a slots ss)
  executeLoop : ∀ a slots c body,
    Refines (Script.executeLoop fuel a slots c body) (Script.executeLoop fuel' a slots c body)

namespace MoreFuel

variable {fuel fuel' : Nat}

theorem zero (fuel' : Nat) : MoreFuel 0 fuel' where
  evaluate _ _ _ := .outOfFuel _
  evaluateTruth _ _ _ := .outOfFuel _
  evaluateArgs _ _ _ := .outOfFuel _
  callMethod _ _ _ _ _ := .outOfFuel _
  runMethod _ _ := .outOfFuel _
  execute _ _ _ := .outOfFuel _
  executeAll _ _ _ := .outOfFuel _
  executeLoop _ _ _ _ := .outOfFuel _

variable (ih : MoreFuel fuel fuel') (a : Activation) (slots : Slots)

include ih

theorem evaluate_succ (e : BoundExpr) :
    Refines (Script.evaluate (fuel + 1) a slots e) (Script.evaluate (fuel' + 1) a slots e) := by
  cases e with
  | const | slot | self => exact .refl _
  | unary op e => exact (ih.evaluate a slots e).bind_left _
  | binary op l r =>
    have hleft := ih.evaluateTruth a slots l
    have hright := (ih.evaluateTruth a slots r).bind_left fun b ↦ pure (Value.bool b)
    cases op with
    | and =>
      refine hleft.bind fun b ↦ ?_
      cases b with
      | true => exact hright
      | false => exact .refl _
    | or =>
      refine hleft.bind fun b ↦ ?_
      cases b with
      | true => exact .refl _
      | false => exact hright
    | _ => exact (ih.evaluate a slots l).bind fun v ↦ (ih.evaluate a slots r).bind_left _
  | library m es => exact (ih.evaluateArgs a slots es).bind_left _
  | call ci mi es =>
    exact (ih.evaluateArgs a slots es).bind fun vs ↦ ih.callMethod a.program ci mi a.self vs

theorem evaluateTruth_succ (e : BoundExpr) :
    Refines (Script.evaluateTruth (fuel + 1) a slots e)
      (Script.evaluateTruth (fuel' + 1) a slots e) :=
  (ih.evaluate a slots e).bind_left _

theorem evaluateArgs_succ (es : List BoundExpr) :
    Refines (Script.evaluateArgs (fuel + 1) a slots es)
      (Script.evaluateArgs (fuel' + 1) a slots es) := by
  cases es with
  | nil => exact .refl _
  | cons e es =>
    refine (ih.evaluate a slots e).bind fun v ↦ ?_
    cases v.isVoid with
    | true => exact .refl _
    | false => exact (ih.evaluateArgs a slots es).bind_left _

theorem callMethod_succ (p : BoundProgram) (ci mi : Nat) (self : Value) (args : List Value) :
    Refines (Script.callMethod (fuel + 1) p ci mi self args)
      (Script.callMethod (fuel' + 1) p ci mi self args) := by
  intro w
  simp only [Script.callMethod]
  cases p.method? ci mi with
  | none => exact .inl rfl
  | some m =>
    dsimp only
    split
    · exact .inl rfl
    · let a : Activation := ⟨p, m, if m.isStatic then .null else self⟩
      rcases ih.runMethod a args { w with depth := w.depth + 1 } with hsame | ⟨w', hout⟩
      · rw [hsame]
        exact .inl rfl
      · rw [hout]
        exact .inr ⟨_, rfl⟩

theorem runMethod_succ (args : List Value) :
    Refines (Script.runMethod (fuel + 1) a args) (Script.runMethod (fuel' + 1) a args) :=
  .bind_right _ fun slots ↦ (ih.executeAll a slots a.method.body).bind_left _

theorem execute_succ (s : BoundStmt) :
    Refines (Script.execute (fuel + 1) a slots s) (Script.execute (fuel' + 1) a slots s) := by
  cases s with
  | declare i type init =>
    cases init with
    | some e => exact (ih.evaluate a slots e).bind_left _
    | none => cases type <;> exact .refl _
  | assign i type op e => exact (ih.evaluate a slots e).bind_left _
  | giveBack value =>
    cases value with
    | none => exact .refl _
    | some e => exact (ih.evaluate a slots e).bind_left _
  | branch c body otherwise =>
    exact (ih.evaluateTruth a slots c).bind fun b ↦ ih.executeAll a slots _
  | loop c body => exact ih.executeLoop a slots c body
  | throw e => exact (ih.evaluate a slots e).bind_left _
  | block body => exact ih.executeAll a slots body
  | expr e => exact (ih.evaluate a slots e).bind_left _

theorem executeAll_succ (ss : List BoundStmt) :
    Refines (Script.executeAll (fuel + 1) a slots ss)
      (Script.executeAll (fuel' + 1) a slots ss) := by
  cases ss with
  | nil => exact .refl _
  | cons s ss =>
    refine (ih.execute a slots s).bind fun outcome ↦ ?_
    obtain ⟨slots', flow⟩ := outcome
    cases flow with
    | next => exact ih.executeAll a slots' ss
    | result v => exact .refl _

theorem executeLoop_succ (c : BoundExpr) (body : List BoundStmt) :
    Refines (Script.executeLoop (fuel + 1) a slots c body)
      (Script.executeLoop (fuel' + 1) a slots c body) := by
  refine (ih.evaluateTruth a slots c).bind fun b ↦ ?_
  cases b with
  | false => exact .refl _
  | true =>
    refine (ih.executeAll a slots body).bind fun outcome ↦ ?_
    obtain ⟨slots', flow⟩ := outcome
    cases flow with
    | next => exact ih.executeLoop a slots' c body
    | result v => exact .refl _

end MoreFuel

/-- **More fuel changes no end** of a run that has come to one. -/
theorem moreFuel {fuel fuel' : Nat} (h : fuel ≤ fuel') : MoreFuel fuel fuel' := by
  induction fuel generalizing fuel' with
  | zero => exact .zero fuel'
  | succ fuel ih =>
    obtain ⟨fuel', rfl⟩ := Nat.exists_eq_add_of_le' (Nat.one_le_of_lt h)
    have ih := ih (Nat.le_of_succ_le_succ h)
    exact {
      evaluate := ih.evaluate_succ
      evaluateTruth := ih.evaluateTruth_succ
      evaluateArgs := ih.evaluateArgs_succ
      callMethod := ih.callMethod_succ
      runMethod := ih.runMethod_succ
      execute := ih.execute_succ
      executeAll := ih.executeAll_succ
      executeLoop := ih.executeLoop_succ }

end Dossier.Script
