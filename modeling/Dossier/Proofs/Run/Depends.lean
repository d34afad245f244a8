import Dossier.Proofs.Run.Points

/-!
# What a run depends on

The points of `Reaches` are all that there is to a run: another program in which the calls among them
find the same methods is run in the same way, however much of it is different elsewhere.  If a call
were made anywhere else, the other program could have another method there.

`SameRuns p p'` states this for all functions of the interpreter at a fuel, each at a point that is
reached; there is one lemma for each function, and `callMethod_eq_of_reaches` is the result.
-/

set_option autoImplicit false

namespace Dossier.Script

/-! ## The same method in another program -/

/-- The method and its instance, in another program. -/
def Activation.within (a : Activation) (p : BoundProgram) : Activation := { a with program := p }

theorem Activation.parameterSlots_within (a : Activation) (p : BoundProgram) (ps : List BoundParam)
    (args : List Value) : (a.within p).parameterSlots ps args = a.parameterSlots ps args := by
  induction ps generalizing args with
  | nil => rfl
  | cons q qs ih =>
    simp only [parameterSlots, ih]
    rfl

theorem Activation.slots_within (a : Activation) (p : BoundProgram) (args : List Value) :
    (a.within p).slots args = a.slots args := by
  simp only [slots, parameterSlots_within]
  rfl

/-- A step that ends in the same way, and what follows it. -/
theorem bind_congr_at {α β : Type} {x y : Run α} {f g : α → Run β} {w : Machine} (hx : x w = y w)
    (hf : ∀ v w', y w = .ok v w' → f v w' = g v w') : (x >>= f) w = (y >>= g) w := by
  show EStateM.bind x f w = EStateM.bind y g w
  rw [EStateM.bind, EStateM.bind, hx]
  cases h : y w with
  | ok v w' => exact hf v w' h
  | error halt w' => rfl

/-- A condition that is true or false has this value. -/
theorem gives_of_evaluateTruth {pt : Point} {fuel : Nat} {e : BoundExpr} {b : Bool} {w : Machine}
    (h : evaluateTruth fuel pt.activation pt.slots e pt.machine = .ok b w) :
    pt.Gives e (.bool b) w := by
  cases fuel with
  | zero => cases h
  | succ fuel =>
    refine ⟨fuel, ?_⟩
    change EStateM.bind (evaluate fuel pt.activation pt.slots e) pt.activation.truth pt.machine = _
      at h
    rw [EStateM.bind] at h
    cases hv : evaluate fuel pt.activation pt.slots e pt.machine with
    | error halt w' => simp [hv] at h
    | ok v w' =>
      simp only [hv] at h
      cases v with
      | bool b' =>
        cases h
        rfl
      | _ => cases h

variable {p p' : BoundProgram} {ci mi : Nat} {self : Value} {args : List Value} {w : Machine}

theorem Reaches.program {pt : Point} (h : Reaches p ci mi self args w pt) :
    pt.activation.program = p := by
  induction h with
  | start _ hstart =>
    obtain ⟨-, _, _, -, rfl⟩ := hstart
    rfl
  | @step pt pt' _ hs ih =>
    cases hs with
    | call _ _ _ hstart =>
      obtain ⟨-, _, _, -, rfl⟩ := hstart
      exact ih
    | _ => exact ih

/-! ## The statement -/

/-- What is proved of the runs in two programs at a fuel. -/
structure SameRuns (p p' : BoundProgram) (reached : Point → Prop) (fuel : Nat) : Prop where
  evaluate : ∀ {pt : Point} {e : BoundExpr}, reached pt → pt.code = .expr e →
    Script.evaluate fuel (pt.activation.within p') pt.slots e pt.machine =
      Script.evaluate fuel pt.activation pt.slots e pt.machine
  evaluateTruth : ∀ {pt : Point} {e : BoundExpr}, reached pt → pt.code = .expr e →
    Script.evaluateTruth fuel (pt.activation.within p') pt.slots e pt.machine =
      Script.evaluateTruth fuel pt.activation pt.slots e pt.machine
  evaluateArgs : ∀ {pt : Point} {es : List BoundExpr}, reached pt → pt.code = .args es →
    Script.evaluateArgs fuel (pt.activation.within p') pt.slots es pt.machine =
      Script.evaluateArgs fuel pt.activation pt.slots es pt.machine
  callMethod : ∀ {ci mi : Nat} {self : Value} {args : List Value} {w : Machine},
    p'.method? ci mi = p.method? ci mi →
    (∀ m pt, p.method? ci mi = some m → Starts (calleeOf p m self) args w pt → reached pt) →
    Script.callMethod fuel p' ci mi self args w = Script.callMethod fuel p ci mi self args w
  runMethod : ∀ {a : Activation} {args : List Value} {w : Machine},
    (∀ slots w', a.slots args w = .ok slots w' →
      reached ⟨a, slots, a.method.atStart, .stmts a.method.body, w'⟩) →
    Script.runMethod fuel (a.within p') args w = Script.runMethod fuel a args w
  execute : ∀ {pt : Point} {s : BoundStmt}, reached pt → pt.code = .stmt s →
    Script.execute fuel (pt.activation.within p') pt.slots s pt.machine =
      Script.execute fuel pt.activation pt.slots s pt.machine
  executeAll : ∀ {pt : Point} {ss : List BoundStmt}, reached pt → pt.code = .stmts ss →
    Script.executeAll fuel (pt.activation.within p') pt.slots ss pt.machine =
      Script.executeAll fuel pt.activation pt.slots ss pt.machine
  executeLoop : ∀ {pt : Point} {c : BoundExpr} {body : List BoundStmt}, reached pt →
    pt.code = .stmt (.loop c body) →
    Script.executeLoop fuel (pt.activation.within p') pt.slots c body pt.machine =
      Script.executeLoop fuel pt.activation pt.slots c body pt.machine

/-- The calls that are come by find the same methods in the other program. -/
structure SameCalls (p p' : BoundProgram) (reached : Point → Prop) : Prop where
  /-- A step from a point that is reached leads to another one. -/
  step : ∀ {pt pt' : Point}, reached pt → pt.Step pt' → reached pt'
  /-- All of them are points of runs of the program. -/
  program : ∀ {pt : Point}, reached pt → pt.activation.program = p
  /-- Their calls find the same methods. -/
  call : ∀ {pt : Point} {ci mi : Nat} {es : List BoundExpr}, reached pt →
    pt.code = .expr (.call ci mi es) → p'.method? ci mi = p.method? ci mi

namespace SameRuns

variable {reached : Point → Prop} {fuel : Nat} {pt : Point}

theorem zero (p p' : BoundProgram) (reached : Point → Prop) : SameRuns p p' reached 0 where
  evaluate _ _ := rfl
  evaluateTruth _ _ := rfl
  evaluateArgs _ _ := rfl
  callMethod _ _ := rfl
  runMethod _ := rfl
  execute _ _ := rfl
  executeAll _ _ := rfl
  executeLoop _ _ := rfl

/-! ## Expressions -/

theorem evaluate_succ (ih : SameRuns p p' reached fuel) (hs : SameCalls p p' reached) {e : BoundExpr}
    (h : reached pt) (hc : pt.code = .expr e) :
    Script.evaluate (fuel + 1) (pt.activation.within p') pt.slots e pt.machine =
      Script.evaluate (fuel + 1) pt.activation pt.slots e pt.machine := by
  cases e with
  | const | slot | self => rfl
  | unary op operand =>
    have hoperand := ih.evaluate (hs.step h (.operand hc)) rfl
    exact bind_congr_at hoperand fun _ _ _ ↦ rfl
  | binary op left right =>
    have hl := ih.evaluate (hs.step h (.left hc)) rfl
    have hlTruth := ih.evaluateTruth (hs.step h (.left hc)) rfl
    -- the right operand is a point of the run only after a left one that does not decide
    cases op with
    | and =>
      refine bind_congr_at hlTruth fun b w' hb ↦ ?_
      cases b with
      | true =>
        have hright := hs.step h (.right hc (gives_of_evaluateTruth hb) rfl)
        exact bind_congr_at (ih.evaluateTruth hright rfl) fun _ _ _ ↦ rfl
      | false => rfl
    | or =>
      refine bind_congr_at hlTruth fun b w' hb ↦ ?_
      cases b with
      | true => rfl
      | false =>
        have hright := hs.step h (.right hc (gives_of_evaluateTruth hb) rfl)
        exact bind_congr_at (ih.evaluateTruth hright rfl) fun _ _ _ ↦ rfl
    | _ =>
      refine bind_congr_at hl fun v w' hv ↦ ?_
      have hright := hs.step h (.right hc ⟨fuel, hv⟩ trivial)
      exact bind_congr_at (ih.evaluate hright rfl) fun _ _ _ ↦ rfl
  | library m es =>
    have hargs := ih.evaluateArgs (hs.step h (.libraryArgs hc)) rfl
    exact bind_congr_at hargs fun _ _ _ ↦ rfl
  | call ci mi es =>
    have hargs := ih.evaluateArgs (hs.step h (.callArgs hc)) rfl
    refine bind_congr_at hargs fun vs w' hvs ↦ ?_
    show Script.callMethod fuel p' ci mi pt.activation.self vs w' =
      Script.callMethod fuel pt.activation.program ci mi pt.activation.self vs w'
    rw [hs.program h]
    refine ih.callMethod (hs.call h hc) fun m pt' hm hstart ↦ ?_
    rw [← hs.program h] at hm hstart
    exact hs.step h (.call hc hvs hm hstart)

theorem evaluateTruth_succ (ih : SameRuns p p' reached fuel) {e : BoundExpr} (h : reached pt)
    (hc : pt.code = .expr e) :
    Script.evaluateTruth (fuel + 1) (pt.activation.within p') pt.slots e pt.machine =
      Script.evaluateTruth (fuel + 1) pt.activation pt.slots e pt.machine :=
  bind_congr_at (ih.evaluate h hc) fun _ _ _ ↦ rfl

theorem evaluateArgs_succ (ih : SameRuns p p' reached fuel) (hs : SameCalls p p' reached)
    {es : List BoundExpr} (h : reached pt) (hc : pt.code = .args es) :
    Script.evaluateArgs (fuel + 1) (pt.activation.within p') pt.slots es pt.machine =
      Script.evaluateArgs (fuel + 1) pt.activation pt.slots es pt.machine := by
  cases es with
  | nil => rfl
  | cons e es =>
    have hfirst := ih.evaluate (hs.step h (.firstArg hc)) rfl
    refine bind_congr_at hfirst fun v w' hv ↦ ?_
    cases v with
    | void => rfl
    | _ =>
      have hrest := hs.step h (.otherArgs hc ⟨fuel, hv⟩ (by simp))
      exact bind_congr_at (ih.evaluateArgs hrest rfl) fun _ _ _ ↦ rfl

/-! ## Calls -/

theorem callMethod_succ (ih : SameRuns p p' reached fuel) {ci mi : Nat} {self : Value}
    {args : List Value} {w : Machine} (hsame : p'.method? ci mi = p.method? ci mi)
    (h : ∀ m pt, p.method? ci mi = some m → Starts (calleeOf p m self) args w pt → reached pt) :
    Script.callMethod (fuel + 1) p' ci mi self args w =
      Script.callMethod (fuel + 1) p ci mi self args w := by
  cases hm : p.method? ci mi with
  | none => simp only [Script.callMethod, hsame, hm]
  | some m =>
    have hm' : p'.method? ci mi = some m := hsame.trans hm
    rcases Nat.lt_or_ge w.depth maxCallDepth with hroom | hfull
    · have hrun : Script.runMethod fuel (calleeOf p' m self) args { w with depth := w.depth + 1 } =
          Script.runMethod fuel (calleeOf p m self) args { w with depth := w.depth + 1 } :=
        ih.runMethod fun slots w' hslots ↦ h m _ hm ⟨hroom, slots, w', hslots, rfl⟩
      rw [callMethod_of_room hm' hroom, callMethod_of_room hm hroom, hrun]
    · rw [callMethod_of_full hm' hfull, callMethod_of_full hm hfull]

theorem runMethod_succ (ih : SameRuns p p' reached fuel) {a : Activation} {args : List Value}
    {w : Machine}
    (h : ∀ slots w', a.slots args w = .ok slots w' →
      reached ⟨a, slots, a.method.atStart, .stmts a.method.body, w'⟩) :
    Script.runMethod (fuel + 1) (a.within p') args w = Script.runMethod (fuel + 1) a args w := by
  refine bind_congr_at (by rw [a.slots_within]) fun slots w' hslots ↦ ?_
  exact bind_congr_at (ih.executeAll (h slots w' hslots) rfl) fun _ _ _ ↦ rfl

/-! ## Statements -/

theorem execute_succ (ih : SameRuns p p' reached fuel) (hs : SameCalls p p' reached) {s : BoundStmt}
    (h : reached pt) (hc : pt.code = .stmt s) :
    Script.execute (fuel + 1) (pt.activation.within p') pt.slots s pt.machine =
      Script.execute (fuel + 1) pt.activation pt.slots s pt.machine := by
  cases s with
  | declare i type init =>
    cases init with
    | none => cases type <;> rfl
    | some e =>
      have hinit := ih.evaluate (hs.step h (.init hc)) rfl
      exact bind_congr_at hinit fun _ _ _ ↦ rfl
  | assign i type op value =>
    have hvalue := ih.evaluate (hs.step h (.assigned hc)) rfl
    refine bind_congr_at hvalue fun _ _ _ ↦ ?_
    cases op <;> rfl
  | giveBack value =>
    cases value with
    | none => rfl
    | some e =>
      have hresult := ih.evaluate (hs.step h (.result hc)) rfl
      exact bind_congr_at hresult fun _ _ _ ↦ rfl
  | branch c body otherwise =>
    have hcondition := ih.evaluateTruth (hs.step h (.branchCondition hc)) rfl
    refine bind_congr_at hcondition fun b w' hb ↦ ?_
    have hgives := gives_of_evaluateTruth hb
    cases b with
    | true => exact ih.executeAll (hs.step h (.branchBody hc hgives)) rfl
    | false => exact ih.executeAll (hs.step h (.branchOtherwise hc hgives)) rfl
  | loop c body => exact ih.executeLoop h hc
  | throw value =>
    have hvalue := ih.evaluate (hs.step h (.thrown hc)) rfl
    exact bind_congr_at hvalue fun _ _ _ ↦ rfl
  | block body =>
    have hbody := ih.executeAll (hs.step h (.blockBody hc)) rfl
    exact hbody
  | expr e =>
    have hvalue := ih.evaluate (hs.step h (.expr hc)) rfl
    exact bind_congr_at hvalue fun _ _ _ ↦ rfl

theorem executeAll_succ (ih : SameRuns p p' reached fuel) (hs : SameCalls p p' reached)
    {ss : List BoundStmt} (h : reached pt) (hc : pt.code = .stmts ss) :
    Script.executeAll (fuel + 1) (pt.activation.within p') pt.slots ss pt.machine =
      Script.executeAll (fuel + 1) pt.activation pt.slots ss pt.machine := by
  cases ss with
  | nil => rfl
  | cons s ss =>
    have hfirst := ih.execute (hs.step h (.firstStmt hc)) rfl
    refine bind_congr_at hfirst fun outcome w' hexec ↦ ?_
    obtain ⟨slots, flow⟩ := outcome
    cases flow with
    | next => exact ih.executeAll (hs.step h (.otherStmts hc hexec)) rfl
    | result v => rfl

theorem executeLoop_succ (ih : SameRuns p p' reached fuel) (hs : SameCalls p p' reached)
    {c : BoundExpr} {body : List BoundStmt} (h : reached pt)
    (hc : pt.code = .stmt (.loop c body)) :
    Script.executeLoop (fuel + 1) (pt.activation.within p') pt.slots c body pt.machine =
      Script.executeLoop (fuel + 1) pt.activation pt.slots c body pt.machine := by
  have hcondition := ih.evaluateTruth (hs.step h (.loopCondition hc)) rfl
  refine bind_congr_at hcondition fun b w' hb ↦ ?_
  cases b with
  | false => rfl
  | true =>
    have hgives := gives_of_evaluateTruth hb
    have hbody := ih.executeAll (hs.step h (.loopBody hc hgives)) rfl
    refine bind_congr_at hbody fun outcome w'' hpasses ↦ ?_
    obtain ⟨slots, flow⟩ := outcome
    cases flow with
    | next => exact ih.executeLoop (hs.step h (.loopAgain hc hgives ⟨fuel, hpasses⟩)) hc
    | result v => rfl

end SameRuns

/-- Where the calls find the same methods, all runs are the same. -/
theorem SameCalls.sameRuns {reached : Point → Prop} (hs : SameCalls p p' reached) (fuel : Nat) :
    SameRuns p p' reached fuel := by
  induction fuel with
  | zero => exact .zero p p' reached
  | succ fuel ih =>
    exact {
      evaluate := ih.evaluate_succ hs
      evaluateTruth := ih.evaluateTruth_succ
      evaluateArgs := ih.evaluateArgs_succ hs
      callMethod := ih.callMethod_succ
      runMethod := ih.runMethod_succ
      execute := ih.execute_succ hs
      executeAll := ih.executeAll_succ hs
      executeLoop := ih.executeLoop_succ hs }

/-- **A run depends only on the methods that it calls**: another program that has the same method
where the run is entered, and at every call that it comes by, is run in the same way. -/
theorem callMethod_eq_of_reaches (hentry : p'.method? ci mi = p.method? ci mi)
    (hcalls : ∀ pt ci' mi' es, Reaches p ci mi self args w pt → pt.code = .expr (.call ci' mi' es) →
      p'.method? ci' mi' = p.method? ci' mi') (fuel : Nat) :
    callMethod fuel p' ci mi self args w = callMethod fuel p ci mi self args w := by
  have hs : SameCalls p p' (Reaches p ci mi self args w) := {
    step := .step
    program := Reaches.program
    call := hcalls _ _ _ _ }
  exact (hs.sameRuns fuel).callMethod hentry fun m pt ↦ .start

end Dossier.Script
