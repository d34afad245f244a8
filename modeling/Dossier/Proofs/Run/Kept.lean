import Dossier.Proofs.Run.Fuel
import Dossier.Proofs.Run.Output
import Dossier.Proofs.Run.Depends

/-!
# What has been written is kept

At every point of a run some output has been written.  All of it is still there when the run ends,
however it ends: a failure leaves it in place.

* `Leaves x w w'` says that a run started on `w` ends on `w'`, with a result or with a halt that is
  not for want of fuel.
* `Point.Finishes` says this of the code at a point.
* `Point.Step.endsWithin` goes along one step: where the code at a point comes to an end, so does the
  part of it that the step leads to, and what the part leaves behind is kept to the end of the whole.
  The step may know its own fuel for what ran before; `Leaves.rest` is where the two are compared.
* `callMethod_keeps` is the result for a whole run.
-/

set_option autoImplicit false

namespace Dossier.Script

/-- The output of the first machine is still there on the second one, in front. -/
def Machine.KeptIn (w w' : Machine) : Prop := ∃ text, w'.output = w.output ++ text

theorem Machine.KeptIn.refl (w : Machine) : w.KeptIn w := ⟨"", String.append_empty.symm⟩

theorem Machine.KeptIn.trans {w w' w'' : Machine} (h : w.KeptIn w') (h' : w'.KeptIn w'') :
    w.KeptIn w'' := by
  obtain ⟨text, h⟩ := h
  obtain ⟨text', h'⟩ := h'
  exact ⟨text ++ text', by rw [h', h, String.append_assoc]⟩

/-- The run comes to an end, on this machine. -/
def Leaves {α : Type} (x : Run α) (w w' : Machine) : Prop :=
  ∃ result, result ≠ .error .outOfFuel ∧ x w = endedWith result w'

namespace Leaves

variable {α β : Type} {x : Run α} {f : α → Run β} {w w' : Machine}

theorem not_outOfFuel : ¬ Leaves (throw .outOfFuel : Run α) w w' := by
  rintro ⟨result, hne, h⟩
  cases result with
  | ok v => cases h
  | error halt =>
    cases h
    exact hne rfl

/-- **A run keeps what has been written before it.** -/
theorem keptIn (h : Leaves x w w') (hx : Appends x) : w.KeptIn w' := by
  obtain ⟨result, -, hend⟩ := h
  obtain ⟨result', text, rest, -, happ⟩ := hx w.replies w.depth
  refine ⟨text, ?_⟩
  have := hend.symm.trans (happ w.output)
  cases result <;> cases result' <;> cases this <;> rfl

/-- A step and what follows it: the step fails and is the end, or it is not. -/
theorem of_bind (h : Leaves (x >>= f) w w') :
    (∃ halt, halt ≠ .outOfFuel ∧ x w = .error halt w') ∨
      ∃ v w₁, x w = .ok v w₁ ∧ Leaves (f v) w₁ w' := by
  obtain ⟨result, hne, h⟩ := h
  change EStateM.bind x f w = _ at h
  rw [EStateM.bind] at h
  cases hx : x w with
  | ok v w₁ =>
    rw [hx] at h
    exact .inr ⟨v, w₁, rfl, result, hne, h⟩
  | error halt w₁ =>
    rw [hx] at h
    cases result with
    | ok v => cases h
    | error halt' =>
      cases h
      exact .inl ⟨halt, fun hout ↦ hne (congrArg _ hout), rfl⟩

/-- **The first step** comes to an end too, and what follows keeps what it leaves. -/
theorem first (h : Leaves (x >>= f) w w') (hf : ∀ v, Appends (f v)) :
    ∃ w₁, Leaves x w w₁ ∧ w₁.KeptIn w' := by
  rcases h.of_bind with ⟨halt, hhalt, hx⟩ | ⟨v, w₁, hx, hrest⟩
  · exact ⟨w', ⟨.error halt, by simpa using hhalt, hx⟩, .refl w'⟩
  · exact ⟨w₁, ⟨.ok v, by simp, hx⟩, hrest.keptIn (hf v)⟩

/-- What follows a step that has a result. -/
theorem after {v : α} {w₁ : Machine} (h : Leaves (x >>= f) w w') (hx : x w = .ok v w₁) :
    Leaves (f v) w₁ w' := by
  rcases h.of_bind with ⟨halt, -, hx'⟩ | ⟨v', w₁', hx', hrest⟩
  · cases hx.symm.trans hx'
  · cases hx.symm.trans hx'
    exact hrest

/-- **What follows a step** that is known to have a result, perhaps at another fuel. -/
theorem rest {y : Nat → Run α} {fuel fuel' : Nat} {v : α} {w₁ : Machine}
    (h : Leaves (y fuel >>= f) w w')
    (hmore : ∀ {fuel fuel' : Nat}, fuel ≤ fuel' → Refines (y fuel) (y fuel'))
    (hy : y fuel' w = .ok v w₁) : Leaves (f v) w₁ w' := by
  have hmax := (hmore (Nat.le_max_right fuel fuel')).eq_of_ok hy
  rcases h.of_bind with ⟨halt, hhalt, hx⟩ | ⟨v', w₁', hx, hrest⟩
  · have := (hmore (Nat.le_max_left fuel fuel')).eq_of_error hhalt hx
    cases hmax.symm.trans this
  · have := (hmore (Nat.le_max_left fuel fuel')).eq_of_ok hx
    cases hmax.symm.trans this
    exact hrest

end Leaves

/-! ## The code at a point -/

namespace Point

/-- The code at a point comes to an end, on this machine. -/
def Finishes (pt : Point) (w : Machine) : Prop :=
  ∃ fuel, match pt.code with
    | .expr e => Leaves (evaluate fuel pt.activation pt.slots e) pt.machine w
    | .args es => Leaves (evaluateArgs fuel pt.activation pt.slots es) pt.machine w
    | .stmt s => Leaves (execute fuel pt.activation pt.slots s) pt.machine w
    | .stmts ss => Leaves (executeAll fuel pt.activation pt.slots ss) pt.machine w

/-- The code at a point comes to an end, and what it leaves is kept on this machine. -/
def EndsWithin (pt : Point) (w : Machine) : Prop := ∃ w₁, pt.Finishes w₁ ∧ w₁.KeptIn w

variable {pt : Point} {w : Machine}

theorem Finishes.endsWithin (h : pt.Finishes w) : pt.EndsWithin w := ⟨w, h, .refl w⟩

theorem Finishes.keptIn (h : pt.Finishes w) : pt.machine.KeptIn w := by
  obtain ⟨fuel, h⟩ := h
  split at h
  · exact h.keptIn ((appending fuel).evaluate _ _ _)
  · exact h.keptIn ((appending fuel).evaluateArgs _ _ _)
  · exact h.keptIn ((appending fuel).execute _ _ _)
  · exact h.keptIn ((appending fuel).executeAll _ _ _)

theorem EndsWithin.keptIn (h : pt.EndsWithin w) : pt.machine.KeptIn w := by
  obtain ⟨w₁, hfinishes, hkept⟩ := h
  exact hfinishes.keptIn.trans hkept

theorem Finishes.expr {e : BoundExpr} (h : pt.Finishes w) (hc : pt.code = .expr e) :
    ∃ fuel, Leaves (evaluate (fuel + 1) pt.activation pt.slots e) pt.machine w := by
  obtain ⟨fuel, h⟩ := h
  rw [hc] at h
  cases fuel with
  | zero => exact absurd h Leaves.not_outOfFuel
  | succ fuel => exact ⟨fuel, h⟩

theorem Finishes.args {es : List BoundExpr} (h : pt.Finishes w) (hc : pt.code = .args es) :
    ∃ fuel, Leaves (evaluateArgs (fuel + 1) pt.activation pt.slots es) pt.machine w := by
  obtain ⟨fuel, h⟩ := h
  rw [hc] at h
  cases fuel with
  | zero => exact absurd h Leaves.not_outOfFuel
  | succ fuel => exact ⟨fuel, h⟩

theorem Finishes.stmt {s : BoundStmt} (h : pt.Finishes w) (hc : pt.code = .stmt s) :
    ∃ fuel, Leaves (execute (fuel + 1) pt.activation pt.slots s) pt.machine w := by
  obtain ⟨fuel, h⟩ := h
  rw [hc] at h
  cases fuel with
  | zero => exact absurd h Leaves.not_outOfFuel
  | succ fuel => exact ⟨fuel, h⟩

theorem Finishes.stmts {ss : List BoundStmt} (h : pt.Finishes w) (hc : pt.code = .stmts ss) :
    ∃ fuel, Leaves (executeAll (fuel + 1) pt.activation pt.slots ss) pt.machine w := by
  obtain ⟨fuel, h⟩ := h
  rw [hc] at h
  cases fuel with
  | zero => exact absurd h Leaves.not_outOfFuel
  | succ fuel => exact ⟨fuel, h⟩

/-- The rounds of a loop that comes to an end. -/
theorem Finishes.loop {c : BoundExpr} {body : List BoundStmt} (h : pt.Finishes w)
    (hc : pt.code = .stmt (.loop c body)) :
    ∃ fuel, Leaves (executeLoop (fuel + 1) pt.activation pt.slots c body) pt.machine w := by
  obtain ⟨fuel, h⟩ := h.stmt hc
  cases fuel with
  | zero => exact absurd h Leaves.not_outOfFuel
  | succ fuel => exact ⟨fuel, h⟩

/-- A run whose first step is within the code at a point. -/
theorem EndsWithin.of_first {α β : Type} {x : Run α} {f : α → Run β} {w₀ : Machine}
    (h : Leaves (x >>= f) w₀ w) (hf : ∀ v, Appends (f v))
    (hx : ∀ w₁, Leaves x w₀ w₁ → pt.EndsWithin w₁) : pt.EndsWithin w := by
  obtain ⟨w₁, hfirst, hkept⟩ := h.first hf
  obtain ⟨w₂, hfinishes, hkept'⟩ := hx w₁ hfirst
  exact ⟨w₂, hfinishes, hkept'.trans hkept⟩

theorem endsWithin_evaluate {fuel : Nat} {e : BoundExpr} {w₀ w₁ : Machine}
    (h : Leaves (evaluate fuel pt.activation pt.slots e) w₀ w₁) :
    (pt.go (.expr e) w₀).EndsWithin w₁ := Finishes.endsWithin ⟨fuel, h⟩

theorem endsWithin_evaluateTruth {fuel : Nat} {e : BoundExpr} {w₀ w₁ : Machine}
    (h : Leaves (evaluateTruth fuel pt.activation pt.slots e) w₀ w₁) :
    (pt.go (.expr e) w₀).EndsWithin w₁ := by
  cases fuel with
  | zero => exact absurd h Leaves.not_outOfFuel
  | succ fuel => exact .of_first h pt.activation.appends_truth fun _ ↦ endsWithin_evaluate

theorem endsWithin_evaluateArgs {fuel : Nat} {es : List BoundExpr} {w₀ w₁ : Machine}
    (h : Leaves (evaluateArgs fuel pt.activation pt.slots es) w₀ w₁) :
    (pt.go (.args es) w₀).EndsWithin w₁ := Finishes.endsWithin ⟨fuel, h⟩

theorem endsWithin_execute {fuel : Nat} {s : BoundStmt} {w₀ w₁ : Machine}
    (h : Leaves (execute fuel pt.activation pt.slots s) w₀ w₁) :
    (pt.go (.stmt s) w₀).EndsWithin w₁ := Finishes.endsWithin ⟨fuel, h⟩

theorem endsWithin_executeAll {fuel : Nat} {ss : List BoundStmt} {w₀ w₁ : Machine}
    (h : Leaves (executeAll fuel pt.activation pt.slots ss) w₀ w₁) :
    (pt.go (.stmts ss) w₀).EndsWithin w₁ := Finishes.endsWithin ⟨fuel, h⟩

/-- What follows an expression that is known to have a value. -/
theorem Gives.rest {β : Type} {fuel : Nat} {e : BoundExpr} {v : Value} {f : Value → Run β}
    {w₁ : Machine} (hgives : pt.Gives e v w₁)
    (h : Leaves (evaluate fuel pt.activation pt.slots e >>= f) pt.machine w) :
    Leaves (f v) w₁ w := by
  obtain ⟨fuel', hgives⟩ := hgives
  exact h.rest (fun hle ↦ (moreFuel hle).evaluate _ _ _) hgives

/-- What follows a condition that is known to have a value. -/
theorem Gives.restOfTruth {β : Type} {fuel : Nat} {e : BoundExpr} {b : Bool} {f : Bool → Run β}
    {w₁ : Machine} (hgives : pt.Gives e (.bool b) w₁)
    (h : Leaves (evaluateTruth fuel pt.activation pt.slots e >>= f) pt.machine w) :
    Leaves (f b) w₁ w := by
  obtain ⟨fuel', hgives⟩ := hgives
  have htruth : evaluateTruth (fuel' + 1) pt.activation pt.slots e pt.machine = .ok b w₁ := by
    show EStateM.bind (evaluate fuel' pt.activation pt.slots e) pt.activation.truth pt.machine = _
    rw [EStateM.bind, hgives]
    rfl
  exact h.rest (fun hle ↦ (moreFuel hle).evaluateTruth _ _ _) htruth

end Point

/-! ## Along a step -/

/-- A call that comes to an end has run the body of its method to an end. -/
theorem Starts.endsWithin {p : BoundProgram} {ci mi fuel : Nat} {m : BoundMethod} {self : Value}
    {args : List Value} {w w' : Machine} {pt : Point} (hm : p.method? ci mi = some m)
    (hstart : Starts (calleeOf p m self) args w pt)
    (h : Leaves (callMethod fuel p ci mi self args) w w') : pt.EndsWithin w' := by
  obtain ⟨hroom, slots, w₁, hslots, rfl⟩ := hstart
  cases fuel with
  | zero => exact absurd h Leaves.not_outOfFuel
  | succ fuel =>
    obtain ⟨result, hne, h⟩ := h
    rw [callMethod_of_room hm hroom] at h
    -- the end of the call is that of the method, with one call less open
    have hrun : ∃ w₂, Leaves (runMethod fuel (calleeOf p m self) args)
        { w with depth := w.depth + 1 } w₂ ∧ w₂.KeptIn w' := by
      cases hr : runMethod fuel (calleeOf p m self) args { w with depth := w.depth + 1 } with
      | ok v w₂ =>
        rw [hr] at h
        cases result <;> cases h
        exact ⟨w₂, ⟨.ok v, by simp, hr⟩, .refl w₂⟩
      | error halt w₂ =>
        rw [hr] at h
        cases result <;> cases h
        exact ⟨w₂, ⟨_, hne, hr⟩, .refl w₂⟩
    obtain ⟨w₂, hrun, hkept⟩ := hrun
    cases fuel with
    | zero => exact absurd hrun Leaves.not_outOfFuel
    | succ fuel =>
      obtain ⟨w₃, hfirst, hkept'⟩ := (hrun.after hslots).first (calleeOf p m self).appends_returned
      exact ⟨w₃, ⟨fuel, hfirst⟩, hkept'.trans hkept⟩

/-- **Where the code at a point comes to an end**, so does the part of it that a step leads to, and
what the part leaves is kept. -/
theorem Point.Step.endsWithin {pt pt' : Point} {w : Machine} (hs : pt.Step pt')
    (h : pt.Finishes w) : pt'.EndsWithin w := by
  cases hs with
  | operand hc =>
    obtain ⟨fuel, h⟩ := h.expr hc
    exact .of_first h (fun _ ↦ pt.activation.appends_lift _) fun _ ↦ endsWithin_evaluate
  | @left op l r hc =>
    obtain ⟨fuel, h⟩ := h.expr hc
    have hright := (appending fuel).evaluateRight pt.activation pt.slots r
    cases op with
    | and => exact .of_first h (fun _ ↦ .ite hright (.pure _)) fun _ ↦ endsWithin_evaluateTruth
    | or => exact .of_first h (fun _ ↦ .ite (.pure _) hright) fun _ ↦ endsWithin_evaluateTruth
    | _ =>
      have hright := (appending fuel).evaluate pt.activation pt.slots r
      exact .of_first h (fun _ ↦ hright.bind fun _ ↦ pt.activation.appends_lift _)
        fun _ ↦ endsWithin_evaluate
  | @right op l r v w₁ hc hgives hgoes =>
    obtain ⟨fuel, h⟩ := h.expr hc
    cases op with
    | and =>
      obtain rfl : v = .bool true := hgoes
      exact .of_first (hgives.restOfTruth h) (fun _ ↦ .pure _) fun _ ↦ endsWithin_evaluateTruth
    | or =>
      obtain rfl : v = .bool false := hgoes
      exact .of_first (hgives.restOfTruth h) (fun _ ↦ .pure _) fun _ ↦ endsWithin_evaluateTruth
    | _ =>
      exact .of_first (hgives.rest h) (fun _ ↦ pt.activation.appends_lift _)
        fun _ ↦ endsWithin_evaluate
  | libraryArgs hc =>
    obtain ⟨fuel, h⟩ := h.expr hc
    exact .of_first h (pt.activation.appends_callLibrary _) fun _ ↦ endsWithin_evaluateArgs
  | callArgs hc =>
    obtain ⟨fuel, h⟩ := h.expr hc
    exact .of_first h ((appending fuel).callMethod _ _ _ _) fun _ ↦ endsWithin_evaluateArgs
  | call hc hargs hm hstart =>
    obtain ⟨fuel, h⟩ := h.expr hc
    have hcall := h.rest (fun hle ↦ (moreFuel hle).evaluateArgs _ _ _) hargs
    exact hstart.endsWithin hm hcall
  | firstArg hc =>
    obtain ⟨fuel, h⟩ := h.args hc
    exact .of_first h (fun v ↦ (appending fuel).evaluateOthers _ _ v _) fun _ ↦ endsWithin_evaluate
  | @otherArgs e es v w₁ hc hgives hv =>
    obtain ⟨fuel, h⟩ := h.args hc
    have hothers := hgives.rest h
    rw [if_neg (v.isVoid_iff.not.2 hv)] at hothers
    exact .of_first hothers (fun _ ↦ .pure _) fun _ ↦ endsWithin_evaluateArgs
  | init hc =>
    obtain ⟨fuel, h⟩ := h.stmt hc
    exact .of_first h (pt.activation.appends_declared _ _ _) fun _ ↦ endsWithin_evaluate
  | assigned hc =>
    obtain ⟨fuel, h⟩ := h.stmt hc
    exact .of_first h (pt.activation.appends_updated _ _ _ _) fun _ ↦ endsWithin_evaluate
  | result hc =>
    obtain ⟨fuel, h⟩ := h.stmt hc
    exact .of_first h (fun _ ↦ .pure _) fun _ ↦ endsWithin_evaluate
  | branchCondition hc =>
    obtain ⟨fuel, h⟩ := h.stmt hc
    exact .of_first h (fun _ ↦ (appending fuel).executeAll _ _ _) fun _ ↦ endsWithin_evaluateTruth
  | branchBody hc hgives =>
    obtain ⟨fuel, h⟩ := h.stmt hc
    exact endsWithin_executeAll (hgives.restOfTruth h)
  | branchOtherwise hc hgives =>
    obtain ⟨fuel, h⟩ := h.stmt hc
    exact endsWithin_executeAll (hgives.restOfTruth h)
  | loopCondition hc =>
    obtain ⟨fuel, h⟩ := h.loop hc
    have hround := (appending fuel).executeRound pt.activation pt.slots
    exact .of_first h (fun _ ↦ .ite (hround _ _) (.pure _)) fun _ ↦ endsWithin_evaluateTruth
  | loopBody hc hgives =>
    obtain ⟨fuel, h⟩ := h.loop hc
    exact .of_first (hgives.restOfTruth h) (.onNext fun slots ↦ (appending fuel).executeLoop _ slots _ _)
      fun _ ↦ endsWithin_executeAll
  | loopAgain hc hgives hpasses =>
    obtain ⟨fuel, h⟩ := h.loop hc
    obtain ⟨fuel', hpasses⟩ := hpasses
    have hround := hgives.restOfTruth h
    have hagain := hround.rest (fun hle ↦ (moreFuel hle).executeAll _ _ _) hpasses
    refine Finishes.endsWithin ⟨fuel + 1, ?_⟩
    rw [hc]
    exact hagain
  | thrown hc =>
    obtain ⟨fuel, h⟩ := h.stmt hc
    exact .of_first h (fun _ ↦ pt.activation.appends_fail _) fun _ ↦ endsWithin_evaluate
  | blockBody hc =>
    obtain ⟨fuel, h⟩ := h.stmt hc
    exact endsWithin_executeAll h
  | expr hc =>
    obtain ⟨fuel, h⟩ := h.stmt hc
    exact .of_first h (fun _ ↦ .pure _) fun _ ↦ endsWithin_evaluate
  | firstStmt hc =>
    obtain ⟨fuel, h⟩ := h.stmts hc
    exact .of_first h (.onNext fun slots ↦ (appending fuel).executeAll _ slots _)
      fun _ ↦ endsWithin_execute
  | otherStmts hc hexec =>
    obtain ⟨fuel, h⟩ := h.stmts hc
    have hothers := h.rest (fun hle ↦ (moreFuel hle).execute _ _ _) hexec
    exact Finishes.endsWithin ⟨fuel, hothers⟩

/-- **Output is kept**: what has been written at any point of a run is there when the run ends, with
a result or with a failure. -/
theorem callMethod_keeps {p : BoundProgram} {ci mi fuel : Nat} {self : Value} {args : List Value}
    {w w' : Machine} {pt : Point} (hr : Reaches p ci mi self args w pt)
    (h : Leaves (callMethod fuel p ci mi self args) w w') : pt.machine.KeptIn w' := by
  have hwithin : pt.EndsWithin w' := by
    induction hr with
    | start hm hstart => exact hstart.endsWithin hm h
    | step _ hs ih =>
      obtain ⟨w₁, hfinishes, hkept⟩ := ih
      obtain ⟨w₂, hfinishes', hkept'⟩ := hs.endsWithin hfinishes
      exact ⟨w₂, hfinishes', hkept'.trans hkept⟩
  exact hwithin.keptIn

end Dossier.Script
