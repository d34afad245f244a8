import Dossier.Proofs.Run.Fuel
import Dossier.Proofs.Run.Moves
import Dossier.Proofs.Run.Safety

/-!
# Failures

A failure is passed on as it was raised: nothing that is still to be done, in the call where it
arose or in those around it, is done any more, and nobody changes it.

* `Tracks` ties a run of the interpreter to moves: where it has a result, the moves come to the
  moment with the result, and where it fails, they come to a moment that fails in the same way.  It
  goes along a run step by step (`Tracks.bind`).
* `Tracking fuel` says it of all functions of the interpreter, one lemma for each, joined by
  induction on the fuel.  The work that is left and the calls below are any: that is how a failure
  deep inside of a run is seen not to depend on them.
* `failures_passed_on` puts this together with how an assembly is entered.
-/

set_option autoImplicit false

namespace Dossier.Script

/-! ## What can be a fault -/

namespace Activation

variable (a : Activation)

theorem lift_bind {α β : Type} (found : Except Fault α) (f : α → Except Fault β) :
    a.lift (found >>= f) = a.lift found >>= fun v ↦ a.lift (f v) := by
  cases found <;> rfl

theorem coerce_eq_lift (type : ValueType) (v : Value) :
    a.coerce type v = a.lift (sent (some type) v) := by
  rw [coerce, sent]
  cases type.coerce v <;> rfl

theorem initial_eq_lift (type : Option ValueType) (v : Value) :
    a.initial type v = a.lift (declaredValue type v) := by
  cases type with
  | some t => exact a.coerce_eq_lift t v
  | none =>
    rw [initial, declaredValue]
    cases v.isVoid <;> rfl

theorem assigned_eq_lift (type : Option ValueType) (v : Value) :
    a.assigned type v = a.lift (sent type v) := by
  cases type with
  | some t => exact a.coerce_eq_lift t v
  | none => rfl

theorem truth_eq_lift (v : Value) : a.truth v = a.lift (truthOf v) := by
  cases v <;> rfl

theorem parameterSlots_eq_lift (ps : List BoundParam) (args : List Value) :
    a.parameterSlots ps args = a.lift (parameterValues ps args) := by
  induction ps generalizing args with
  | nil => rfl
  | cons p ps ih =>
    have hrest (v : Value) : (do
        let v ← a.coerce p.type v
        let vs ← a.parameterSlots ps (args.drop 1)
        pure (v :: vs)) = a.lift (do
          let v ← (p.type.coerce v).mapError .coercion
          let vs ← parameterValues ps (args.drop 1)
          .ok (v :: vs)) := by
      simp only [a.coerce_eq_lift, ih, a.lift_bind]
      rfl
    unfold parameterSlots parameterValues
    cases args with
    | cons arg args => exact hrest arg
    | nil =>
      cases p.default? with
      | some v => exact hrest v
      | none => rfl

theorem returned_eq_lift (flow : Flow) :
    (let v := match flow with
      | .result v => v
      | .next => .void
    if a.method.returns = .void then pure .void else a.coerce a.method.returns v) =
      a.lift (resultValue a.method flow) := by
  cases flow <;> simp only [resultValue, a.coerce_eq_lift] <;> split <;> rfl

end Activation

/-! ## Runs along moves -/

/-- With so many calls open, the run ends where the moves from `start` come to: with a result at
`stop`, and with a failure at a moment that fails with it. -/
def Tracks {α : Type} (depth : Nat) (start : Writer → Moment) (x : Run α)
    (stop : α → Writer → Moment) : Prop :=
  ∀ out,
    (∀ v w, x ⟨out, depth⟩ = .ok v w → w.depth = depth ∧ (start out).Comes (stop v w.toWriter)) ∧
    ∀ f w, x ⟨out, depth⟩ = .error (.failure f) w →
      ∃ last, (start out).Comes last ∧ last.Fails f w.toWriter

namespace Tracks

variable {α β : Type} {depth : Nat} {start start' : Writer → Moment} {x : Run α}
  {stop : α → Writer → Moment}

protected theorem pure (v : α) (h : start = stop v) : Tracks depth start (pure v) stop := by
  subst h
  refine fun out ↦ ⟨fun v' w hend ↦ ?_, nofun⟩
  cases hend
  exact ⟨rfl, .refl⟩

theorem stuck : Tracks depth start (throw .stuck) stop := fun _ ↦ ⟨nofun, nofun⟩

theorem outOfFuel : Tracks depth start (throw .outOfFuel) stop := fun _ ↦ ⟨nofun, nofun⟩

/-- A move, and then the run. -/
theorem move (h : ∀ out, (start out).next = .on (start' out)) (hx : Tracks depth start' x stop) :
    Tracks depth start x stop := by
  refine fun out ↦ ⟨fun v w hend ↦ ?_, fun f w hend ↦ ?_⟩
  · obtain ⟨hdepth, hcomes⟩ := (hx out).1 v w hend
    exact ⟨hdepth, .head (h out) hcomes⟩
  · obtain ⟨last, hcomes, hfails⟩ := (hx out).2 f w hend
    exact ⟨last, .head (h out) hcomes, hfails⟩

/-- **A step and what follows it**: the first failure is the end of both. -/
protected theorem bind {f : α → Run β} {stop' : β → Writer → Moment}
    (hx : Tracks depth start x stop) (hf : ∀ v, Tracks depth (stop v) (f v) stop') :
    Tracks depth start (x >>= f) stop' := by
  intro out
  have hbind : (x >>= f) ⟨out, depth⟩ = EStateM.bind x f ⟨out, depth⟩ := rfl
  rw [hbind, EStateM.bind]
  cases h : x ⟨out, depth⟩ with
  | error halt w =>
    refine ⟨nofun, fun f' w' hend ↦ ?_⟩
    cases hend
    exact (hx out).2 f' w h
  | ok v w =>
    obtain ⟨hdepth, hcomes⟩ := (hx out).1 v w h
    obtain ⟨hok, herror⟩ := hf v w.toWriter
    rw [← hdepth] at hok herror
    refine ⟨fun v' w' hend ↦ ?_, fun f' w' hend ↦ ?_⟩
    · obtain ⟨hdepth', hcomes'⟩ := hok v' w' hend
      exact ⟨hdepth'.trans hdepth, hcomes.trans hcomes'⟩
    · obtain ⟨last, hcomes', hfails⟩ := herror f' w' hend
      exact ⟨last, hcomes.trans hcomes', hfails⟩

section

variable {focus : Focus} {c : OpenCall} {below : List OpenCall}

/-- A fault of the innermost call. -/
theorem fail {fault : Fault}
    (h : ∀ out, Moment.next ⟨focus, c :: below, out⟩ = .raises fault out) :
    Tracks depth (.mk focus (c :: below)) (c.activation.fail fault : Run α) stop :=
  fun out ↦ ⟨nofun, fun f w hend ↦ by
    cases hend
    exact ⟨_, .refl, .raised (h out)⟩⟩

/-- What may be a fault of the innermost call. -/
theorem lift {found : Except Fault α}
    (h : ∀ out, Moment.next ⟨focus, c :: below, out⟩ =
      Scene.expect ⟨c, below, out⟩ found fun v ↦ .on (stop v out)) :
    Tracks depth (.mk focus (c :: below)) (c.activation.lift found) stop := by
  cases found with
  | ok v => exact .move h (.pure v rfl)
  | error fault => exact .fail h

/-- A call of a method of the library; what it hands to the writer is handed over before it fails. -/
theorem library (m : LibraryMethod) (vs : List Value) :
    Tracks depth (.mk (.values vs) (c.wait (.library m) :: below))
      (c.activation.callLibrary m vs) fun v ↦ .mk (.value v) (c :: below) := by
  intro out
  have hnext := Moment.next_values vs c (.library m) below out
  cases hlib : m.run vs out with
  | none =>
    constructor <;> simp [Activation.callLibrary, hlib]
  | some found =>
    obtain ⟨result, after⟩ := found
    have hrun : c.activation.callLibrary m vs ⟨out, depth⟩ =
        c.activation.lift result ⟨after, depth⟩ := by
      simp only [Activation.callLibrary, hlib]
    simp only [Scene.takeValues, hlib] at hnext
    rw [hrun]
    cases result with
    | ok v =>
      refine ⟨fun v' w hend ↦ ?_, fun f w hend ↦ (by cases hend)⟩
      cases hend
      exact ⟨rfl, .single hnext⟩
    | error fault =>
      refine ⟨fun v w hend ↦ (by cases hend), fun f w hend ↦ ?_⟩
      cases hend
      exact ⟨_, .refl, .raised hnext⟩

/-- A value is put in a slot. -/
theorem stored (i : Nat) (v : Value) :
    Tracks depth (.mk (.value v) (c.wait (.store i) :: below))
      (do
        let slots ← Activation.store c.slots i v
        pure (slots, Flow.next))
      fun r ↦ .mk (.flow r.2) ({ c with slots := r.1 } :: below) := by
  rw [Activation.store]
  split
  · rename_i h
    exact .move (fun _ ↦ if_pos h) (.pure (c.slots.setIfInBounds i v, Flow.next) rfl)
  · exact stuck.bind fun r ↦ .pure (r, Flow.next) rfl

/-- A declaration, once it has a value. -/
theorem declared (i : Nat) (type : Option ValueType) (v : Value) :
    Tracks depth (.mk (.value v) (c.wait (.declare i type) :: below))
      (do
        let v ← c.activation.initial type v
        let slots ← Activation.store c.slots i v
        pure (slots, Flow.next))
      fun r ↦ .mk (.flow r.2) ({ c with slots := r.1 } :: below) := by
  rw [Activation.initial_eq_lift]
  exact (lift (c := c.wait (.declare i type)) fun _ ↦ rfl).bind fun v ↦ stored i v

/-- An assignment, once it has the value to assign. -/
theorem assigned (i : Nat) (type : Option ValueType) (v : Value) :
    Tracks depth (.mk (.value v) (c.wait (.assign i type none) :: below))
      (do
        let v ← c.activation.assigned type v
        let slots ← Activation.store c.slots i v
        pure (slots, Flow.next))
      fun r ↦ .mk (.flow r.2) ({ c with slots := r.1 } :: below) := by
  rw [Activation.assigned_eq_lift]
  exact (lift (c := c.wait (.assign i type none)) fun _ ↦ rfl).bind fun v ↦ stored i v

/-- An assignment, once it has the value of its expression. -/
theorem updated (i : Nat) (type : Option ValueType) (op : Option BinaryOp) (v : Value) :
    Tracks depth (.mk (.value v) (c.wait (.assign i type op) :: below))
      (do
        let v ← match op with
          | some op => do
            let old ← Activation.load c.slots i
            c.activation.lift (op.apply old v)
          | none => pure v
        let v ← c.activation.assigned type v
        let slots ← Activation.store c.slots i v
        pure (slots, Flow.next))
      fun r ↦ .mk (.flow r.2) ({ c with slots := r.1 } :: below) := by
  cases op with
  | none => exact assigned i type v
  | some op =>
    show Tracks depth _ (Activation.load c.slots i >>= fun old ↦
      c.activation.lift (op.apply old v) >>= fun v ↦ do
        let v ← c.activation.assigned type v
        let slots ← Activation.store c.slots i v
        pure (slots, Flow.next)) _
    rw [Activation.load]
    cases hold : c.slots[i]? with
    | none => exact stuck
    | some old =>
      have hnew : Tracks depth (.mk (.value v) (c.wait (.assign i type (some op)) :: below))
          (c.activation.lift (op.apply old v))
          fun v ↦ .mk (.value v) (c.wait (.assign i type none) :: below) := by
        refine lift (c := c.wait (.assign i type (some op))) fun out ↦ ?_
        simp only [Moment.next_value, Scene.takeValue, hold]
        rfl
      exact hnew.bind fun v ↦ assigned i type v

end

end Tracks

/-! ## The interpreter -/

/-- What is proved of the interpreter at a fuel. -/
structure Tracking (fuel : Nat) : Prop where
  evaluate : ∀ c below e,
    Tracks (below.length + 1) (.mk (.run (.expr e)) (c :: below))
      (Script.evaluate fuel c.activation c.slots e) fun v ↦ .mk (.value v) (c :: below)
  evaluateTruth : ∀ c below e work next,
    (∀ v out, Moment.next ⟨.value v, c.wait work :: below, out⟩ =
      Scene.expect ⟨c, below, out⟩ (truthOf v) fun b ↦ .on (next b out)) →
    Tracks (below.length + 1) (.mk (.run (.expr e)) (c.wait work :: below))
      (Script.evaluateTruth fuel c.activation c.slots e) next
  evaluateArgs : ∀ c below es,
    Tracks (below.length + 1) (.mk (.run (.args es)) (c :: below))
      (Script.evaluateArgs fuel c.activation c.slots es) fun vs ↦ .mk (.values vs) (c :: below)
  callMethod : ∀ p ci mi self args below,
    Tracks below.length (.mk (.call p ci mi self args) below)
      (Script.callMethod fuel p ci mi self args) fun v ↦ .mk (.value v) below
  runMethod : ∀ a args below,
    Tracks (below.length + 1) (.mk (.entry args) (⟨a, #[], []⟩ :: below))
      (Script.runMethod fuel a args) fun v ↦ .mk (.value v) below
  execute : ∀ c below s,
    Tracks (below.length + 1) (.mk (.run (.stmt s)) (c :: below))
      (Script.execute fuel c.activation c.slots s)
      fun r ↦ .mk (.flow r.2) ({ c with slots := r.1 } :: below)
  executeAll : ∀ c below ss,
    Tracks (below.length + 1) (.mk (.run (.stmts ss)) (c :: below))
      (Script.executeAll fuel c.activation c.slots ss)
      fun r ↦ .mk (.flow r.2) ({ c with slots := r.1 } :: below)
  executeLoop : ∀ c below condition body,
    Tracks (below.length + 1) (.mk (.run (.stmt (.loop condition body))) (c :: below))
      (Script.executeLoop fuel c.activation c.slots condition body)
      fun r ↦ .mk (.flow r.2) ({ c with slots := r.1 } :: below)

namespace Tracking

theorem zero : Tracking 0 where
  evaluate _ _ _ := .outOfFuel
  evaluateTruth _ _ _ _ _ _ := .outOfFuel
  evaluateArgs _ _ _ := .outOfFuel
  callMethod _ _ _ _ _ _ := .outOfFuel
  runMethod _ _ _ := .outOfFuel
  execute _ _ _ := .outOfFuel
  executeAll _ _ _ := .outOfFuel
  executeLoop _ _ _ _ := .outOfFuel

variable {fuel : Nat} (ih : Tracking fuel) (c : OpenCall) (below : List OpenCall)

include ih

/-- The right operand of a logical operator. -/
theorem evaluateRight (r : BoundExpr) :
    Tracks (below.length + 1) (.mk (.run (.expr r)) (c.wait .truth :: below))
      (do
        let b ← Script.evaluateTruth fuel c.activation c.slots r
        pure (Value.bool b))
      fun v ↦ .mk (.value v) (c :: below) :=
  (ih.evaluateTruth c below r .truth (fun b ↦ .mk (.value (.bool b)) (c :: below))
    fun _ _ ↦ rfl).bind fun b ↦ .pure (Value.bool b) rfl

theorem evaluate_succ (e : BoundExpr) :
    Tracks (below.length + 1) (.mk (.run (.expr e)) (c :: below))
      (Script.evaluate (fuel + 1) c.activation c.slots e)
      fun v ↦ .mk (.value v) (c :: below) := by
  cases e with
  | const v => exact .move (fun _ ↦ rfl) (.pure v rfl)
  | slot i =>
    show Tracks _ _ (Activation.load c.slots i) _
    rw [Activation.load]
    cases h : c.slots[i]? with
    | none => exact .stuck
    | some v => exact .move (fun out ↦ by simp [Moment.next, Scene.run, h, Scene.go]) (.pure v rfl)
  | self => exact .move (fun _ ↦ rfl) (.pure c.activation.self rfl)
  | unary op e =>
    exact .move (fun _ ↦ rfl) ((ih.evaluate (c.wait (.operand op)) below e).bind fun v ↦
      .lift (c := c.wait (.operand op)) fun _ ↦ rfl)
  | binary op l r =>
    cases op with
    | and =>
      refine .move (fun _ ↦ rfl) ((ih.evaluateTruth c below l (.right .and r)
        (fun b ↦ bif b then .mk (.run (.expr r)) (c.wait .truth :: below)
          else .mk (.value (.bool false)) (c :: below)) fun v out ↦ ?_).bind fun b ↦ ?_)
      · cases v with
        | bool b => cases b <;> rfl
        | _ => rfl
      · cases b with
        | true => exact ih.evaluateRight c below r
        | false => exact .pure (Value.bool false) rfl
    | or =>
      refine .move (fun _ ↦ rfl) ((ih.evaluateTruth c below l (.right .or r)
        (fun b ↦ bif b then .mk (.value (.bool true)) (c :: below)
          else .mk (.run (.expr r)) (c.wait .truth :: below)) fun v out ↦ ?_).bind fun b ↦ ?_)
      · cases v with
        | bool b => cases b <;> rfl
        | _ => rfl
      · cases b with
        | true => exact .pure (Value.bool true) rfl
        | false => exact ih.evaluateRight c below r
    | _ =>
      refine .move (fun _ ↦ rfl) ((ih.evaluate (c.wait (.right _ r)) below l).bind fun v ↦ ?_)
      refine .move (fun _ ↦ rfl) ((ih.evaluate (c.wait (.operation _ v)) below r).bind fun w ↦ ?_)
      exact .lift (c := c.wait (.operation _ v)) fun _ ↦ rfl
  | library m es =>
    refine .move (fun _ ↦ rfl) ((ih.evaluateArgs (c.wait (.library m)) below es).bind fun vs ↦ ?_)
    exact .library m vs
  | call ci mi es =>
    refine .move (fun _ ↦ rfl) ((ih.evaluateArgs (c.wait (.call ci mi)) below es).bind fun vs ↦ ?_)
    exact .move (fun _ ↦ rfl) (ih.callMethod c.activation.program ci mi c.activation.self vs
      (c :: below))

theorem evaluateTruth_succ (e : BoundExpr) (work : Work) (next : Bool → Writer → Moment)
    (h : ∀ v out, Moment.next ⟨.value v, c.wait work :: below, out⟩ =
      Scene.expect ⟨c, below, out⟩ (truthOf v) fun b ↦ .on (next b out)) :
    Tracks (below.length + 1) (.mk (.run (.expr e)) (c.wait work :: below))
      (Script.evaluateTruth (fuel + 1) c.activation c.slots e) next := by
  refine (ih.evaluate (c.wait work) below e).bind fun v ↦ ?_
  rw [Activation.truth_eq_lift]
  exact .lift (c := c.wait work) (h v)

theorem evaluateArgs_succ (es : List BoundExpr) :
    Tracks (below.length + 1) (.mk (.run (.args es)) (c :: below))
      (Script.evaluateArgs (fuel + 1) c.activation c.slots es)
      fun vs ↦ .mk (.values vs) (c :: below) := by
  cases es with
  | nil => exact .move (fun _ ↦ rfl) (.pure [] rfl)
  | cons e es =>
    refine .move (fun _ ↦ rfl) ((ih.evaluate (c.wait (.others es)) below e).bind fun v ↦ ?_)
    cases h : v.isVoid with
    | true =>
      exact .fail (c := c.wait (.others es)) fun _ ↦ if_pos h
    | false =>
      refine .move (fun _ ↦ if_neg (by simp [h]))
        ((ih.evaluateArgs (c.wait (.prepend v)) below es).bind fun vs ↦ ?_)
      exact .move (fun _ ↦ rfl) (.pure (v :: vs) rfl)

theorem callMethod_succ (p : BoundProgram) (ci mi : Nat) (self : Value) (args : List Value) :
    Tracks below.length (.mk (.call p ci mi self args) below)
      (Script.callMethod (fuel + 1) p ci mi self args) fun v ↦ .mk (.value v) below := by
  intro out
  cases hm : p.method? ci mi with
  | none =>
    have hrun : Script.callMethod (fuel + 1) p ci mi self args ⟨out, below.length⟩ =
        .error .stuck ⟨out, below.length⟩ := by simp only [Script.callMethod, hm]
    rw [hrun]
    exact Tracks.stuck out
  | some m =>
    rcases Nat.lt_or_ge below.length maxCallDepth with hroom | hfull
    · have hnext : Moment.next ⟨.call p ci mi self args, below, out⟩ =
          .on ⟨.entry args, ⟨calleeOf p m self, #[], []⟩ :: below, out⟩ := by
        simp only [Moment.next, hm, Nat.not_le.2 hroom, if_false]
      obtain ⟨hok, herror⟩ := ih.runMethod (calleeOf p m self) args below out
      rw [callMethod_of_room hm hroom]
      refine ⟨fun v w hend ↦ ?_, fun f w hend ↦ ?_⟩
      · split at hend
        · rename_i v' w' hrun
          obtain ⟨hdepth, hcomes⟩ := hok v' w' hrun
          cases hend
          exact ⟨by simp [hdepth], .head hnext hcomes⟩
        · cases hend
      · split at hend
        · cases hend
        · rename_i halt w' hrun
          cases hend
          obtain ⟨last, hcomes, hfails⟩ := herror f w' hrun
          exact ⟨last, .head hnext hcomes, hfails⟩
    · rw [callMethod_of_full hm hfull]
      refine ⟨fun v w hend ↦ (by cases hend), fun f w hend ↦ ?_⟩
      cases hend
      refine ⟨_, .refl, .refused hm ?_⟩
      simp only [Moment.next, hm, hfull, if_true]

theorem runMethod_succ (a : Activation) (args : List Value) :
    Tracks (below.length + 1) (.mk (.entry args) (⟨a, #[], []⟩ :: below))
      (Script.runMethod (fuel + 1) a args) fun v ↦ .mk (.value v) below := by
  have hslots : Tracks (below.length + 1) (.mk (.entry args) (⟨a, #[], []⟩ :: below))
      (a.slots args) fun slots ↦ .mk (.run (.stmts a.method.body)) (⟨a, slots, []⟩ :: below) := by
    rw [Activation.slots, a.parameterSlots_eq_lift]
    exact (Tracks.lift (c := ⟨a, #[], []⟩) fun _ ↦ rfl).bind fun vs ↦ .pure _ rfl
  refine hslots.bind fun slots ↦ (ih.executeAll ⟨a, slots, []⟩ below a.method.body).bind fun r ↦ ?_
  obtain ⟨slots, flow⟩ := r
  show Tracks _ _ (let v := match flow with
      | .result v => v
      | .next => .void
    if a.method.returns = .void then pure .void else a.coerce a.method.returns v) _
  rw [a.returned_eq_lift]
  exact .lift (c := ⟨a, slots, []⟩) fun _ ↦ rfl

theorem execute_succ (s : BoundStmt) :
    Tracks (below.length + 1) (.mk (.run (.stmt s)) (c :: below))
      (Script.execute (fuel + 1) c.activation c.slots s)
      fun r ↦ .mk (.flow r.2) ({ c with slots := r.1 } :: below) := by
  cases s with
  | declare i type init =>
    cases init with
    | some e =>
      exact .move (fun _ ↦ rfl) ((ih.evaluate (c.wait (.declare i type)) below e).bind fun v ↦
        .declared i type v)
    | none =>
      cases type with
      | some t => exact .move (fun _ ↦ rfl) (.declared i (some t) t.defaultValue)
      | none => exact .move (fun _ ↦ rfl) (.declared i none .null)
  | assign i type op e =>
    exact .move (fun _ ↦ rfl) ((ih.evaluate (c.wait (.assign i type op)) below e).bind fun v ↦
      .updated i type op v)
  | giveBack value =>
    cases value with
    | none => exact .move (fun _ ↦ rfl) (.pure (c.slots, Flow.result .void) rfl)
    | some e =>
      refine .move (fun _ ↦ rfl) ((ih.evaluate (c.wait .giveBack) below e).bind fun v ↦ ?_)
      exact .move (fun _ ↦ rfl) (.pure (c.slots, Flow.result v) rfl)
  | branch condition body otherwise =>
    exact .move (fun _ ↦ rfl) ((ih.evaluateTruth c below condition (.branch body otherwise)
      (fun b ↦ .mk (.run (.stmts (if b then body else otherwise))) (c :: below))
      fun _ _ ↦ rfl).bind fun b ↦ ih.executeAll c below _)
  | loop condition body => exact ih.executeLoop c below condition body
  | throw e =>
    refine .move (fun _ ↦ rfl) ((ih.evaluate (c.wait .throw) below e).bind fun v ↦ ?_)
    exact .fail (c := c.wait .throw) fun _ ↦ rfl
  | block body => exact .move (fun _ ↦ rfl) (ih.executeAll c below body)
  | expr e =>
    refine .move (fun _ ↦ rfl) ((ih.evaluate (c.wait .ignore) below e).bind fun v ↦ ?_)
    exact .move (fun _ ↦ rfl) (.pure (c.slots, Flow.next) rfl)

theorem executeAll_succ (ss : List BoundStmt) :
    Tracks (below.length + 1) (.mk (.run (.stmts ss)) (c :: below))
      (Script.executeAll (fuel + 1) c.activation c.slots ss)
      fun r ↦ .mk (.flow r.2) ({ c with slots := r.1 } :: below) := by
  cases ss with
  | nil => exact .move (fun _ ↦ rfl) (.pure (c.slots, Flow.next) rfl)
  | cons s ss =>
    refine .move (fun _ ↦ rfl) ((ih.execute (c.wait (.rest ss)) below s).bind fun outcome ↦ ?_)
    obtain ⟨slots, flow⟩ := outcome
    cases flow with
    | next => exact .move (fun _ ↦ rfl) (ih.executeAll { c with slots := slots } below ss)
    | result v => exact .move (fun _ ↦ rfl) (.pure (slots, Flow.result v) rfl)

theorem executeLoop_succ (condition : BoundExpr) (body : List BoundStmt) :
    Tracks (below.length + 1) (.mk (.run (.stmt (.loop condition body))) (c :: below))
      (Script.executeLoop (fuel + 1) c.activation c.slots condition body)
      fun r ↦ .mk (.flow r.2) ({ c with slots := r.1 } :: below) := by
  refine .move (fun _ ↦ rfl) ((ih.evaluateTruth c below condition (.loop condition body)
    (fun b ↦ bif b then .mk (.run (.stmts body)) (c.wait (.again condition body) :: below)
      else .mk (.flow .next) (c :: below)) fun v out ↦ ?_).bind fun b ↦ ?_)
  · cases v with
    | bool b => cases b <;> rfl
    | _ => rfl
  · cases b with
    | false => exact .pure (c.slots, Flow.next) rfl
    | true =>
      refine (ih.executeAll (c.wait (.again condition body)) below body).bind fun outcome ↦ ?_
      obtain ⟨slots, flow⟩ := outcome
      cases flow with
      | next =>
        exact .move (fun _ ↦ rfl) (ih.executeLoop { c with slots := slots } below condition body)
      | result v => exact .move (fun _ ↦ rfl) (.pure (slots, Flow.result v) rfl)

end Tracking

/-- **The interpreter tracks the moves**, with any work left and any calls below. -/
theorem tracking (fuel : Nat) : Tracking fuel := by
  induction fuel with
  | zero => exact .zero
  | succ fuel ih =>
    exact {
      evaluate := ih.evaluate_succ
      evaluateTruth := ih.evaluateTruth_succ
      evaluateArgs := ih.evaluateArgs_succ
      callMethod := fun p ci mi self args below ↦ ih.callMethod_succ below p ci mi self args
      runMethod := fun a args below ↦ ih.runMethod_succ below a args
      execute := ih.execute_succ
      executeAll := ih.executeAll_succ
      executeLoop := ih.executeLoop_succ }

/-! ## Failures of runs -/

/-- A run from this moment fails, at its last moment, with this failure. -/
structure FailsAt (start last : Moment) (f : Failure) (out : Writer) : Prop where
  /-- The run comes to the last moment. -/
  comes : start.Comes last
  /-- The failure is raised there, and has the name of the method that runs there or of the one
  whose call is refused. -/
  fails : last.Fails f out
  /-- Whatever the run comes by is before the failure. -/
  all : ∀ m, start.Comes m → m.Comes last
  /-- Nothing that is left to do in any open call is done after it. -/
  isLast : last.IsLast
  /-- A call that the run comes by and that fails does so with this failure. -/
  inner : ∀ p ci mi self args below before, start.Comes ⟨.call p ci mi self args, below, before⟩ →
    ∀ fuel f' w, callMethod fuel p ci mi self args ⟨before, below.length⟩ = .error (.failure f') w →
      f' = f ∧ w.toWriter = out

/-- **A call from outside that fails** does so where the failure is raised. -/
theorem failsAt_of_callMethod {p : BoundProgram} {ci mi fuel : Nat} {self : Value}
    {args : List Value} {out : Writer} {f : Failure} {w : Machine}
    (h : callMethod fuel p ci mi self args ⟨out, 0⟩ = .error (.failure f) w) :
    ∃ last, FailsAt (.start p ci mi self args out) last f w.toWriter := by
  obtain ⟨last, hcomes, hfails⟩ :=
    ((tracking fuel).callMethod p ci mi self args [] out).2 f w h
  refine ⟨last, hcomes, hfails, fun m hm ↦ hcomes.of_last hfails.isLast hm, hfails.isLast, ?_⟩
  intro p' ci' mi' self' args' below before hcall fuel' f' w' h'
  obtain ⟨last', hcomes', hfails'⟩ :=
    ((tracking fuel').callMethod p' ci' mi' self' args' below before).2 f' w' h'
  obtain rfl := hcomes.last_eq hfails.isLast (hcall.trans hcomes') hfails'.isLast
  exact hfails'.unique hfails

/-- An assembly is left with a failure exactly when the method that is entered ends with it. -/
theorem enter_eq_uncaught_iff {a : Assembly} {config : Config} {e : Entry}
    (he : findEntry a config = .ok e) {out after : Writer} {f : Failure} :
    enter a config out = ⟨after, .error (.uncaught f)⟩ ↔
      e.run out = ⟨after, .error (.failure f)⟩ := by
  obtain ⟨end', result, hrun⟩ : ∃ end' result, e.run out = ⟨end', result⟩ := ⟨_, _, rfl⟩
  simp only [enter, he, hrun]
  cases result with
  | ok v => simp [Except.mapError]
  | error halt => cases halt <;> simp [Except.mapError, EntryError.ofHalt]

/-- The outcome of a run that fails. -/
theorem outcome_eq_failure_iff {x : Run Value} {out after : Writer} {f : Failure} :
    Assembly.outcome x out = ⟨after, .error (.failure f)⟩ ↔
      ∃ w, x ⟨out, 0⟩ = .error (.failure f) w ∧ w.toWriter = after := by
  rw [Assembly.outcome]
  cases x ⟨out, 0⟩ with
  | ok v w => simp
  | error halt w => simp [and_comm]

/-- **Failures are passed on as they were raised.**  Where the run of a call from outside ends with
a failure, whatever the writer makes of what it is handed, it is raised at the last moment of the run,
by the innermost call that is open there or by the one that is refused there; nothing that was left to
do in any open call is done, and every call in between ends with this failure too.  An assembly that
is entered is left with exactly the failure with which its method ends. -/
theorem failures_passed_on (p : BoundProgram) :
    (∀ ci mi fuel self args out f w,
      callMethod fuel p ci mi self args ⟨out, 0⟩ = .error (.failure f) w →
        ∃ last, FailsAt (.start p ci mi self args out) last f w.toWriter) ∧
    ∀ name config e, findEntry (Assembly.ofProgram name p) config = .ok e →
      ∃ ci mi self, e.run = Assembly.call p ci mi self [] ∧ ∀ out after f,
        enter (Assembly.ofProgram name p) config out = ⟨after, .error (.uncaught f)⟩ ↔
          ∃ w, callMethod ampleFuel p ci mi self [] ⟨out, 0⟩ = .error (.failure f) w ∧
            w.toWriter = after := by
  refine ⟨fun ci mi fuel self args out f w ↦ failsAt_of_callMethod, fun name config e he ↦ ?_⟩
  obtain ⟨ci, mi, m, self, -, -, hrun⟩ := findEntry_ofProgram he
  refine ⟨ci, mi, self, hrun, fun out after f ↦ ?_⟩
  rw [enter_eq_uncaught_iff he, hrun]
  exact outcome_eq_failure_iff

/-- A method that divides, called twice in one sum, with a text written before and one after. -/
def halfUnit : CompileUnit :=
  ⟨[⟨"Shop", ["System"], [⟨"Desk", .everyone, false,
    [⟨"Half", .owner, false, "int", [⟨"int", "n", none⟩], "return 12 / n;"⟩,
      ⟨"Main", .everyone, false, "int", [],
        "Console.Write(\"a\"); var x = Half(4) + Half(0); Console.Write(\"b\"); return x;"⟩]⟩]⟩]⟩

/-- Does the run fail in this way, with this left of the writer? -/
def failsWith (x : Run Value) (out : Writer) (f : Failure) (after : Writer) : Bool :=
  match x ⟨out, 0⟩ with
  | .error (.failure f') w => f' == f && w.toWriter == after
  | _ => false

theorem exists_of_failsWith {x : Run Value} {out after : Writer} {f : Failure}
    (h : failsWith x out f after = true) :
    ∃ w, x ⟨out, 0⟩ = .error (.failure f) w ∧ w.toWriter = after := by
  rw [failsWith] at h
  split at h
  · rename_i f' w hx
    obtain ⟨rfl, hafter⟩ : f' = f ∧ w.toWriter = after := by simpa using h
    exact ⟨w, hx, hafter⟩
  · cases h

/-- The second call fails in the method that divides, and what follows is not written.  If the writer
fails, the failure is one of the method that has handed it a text. -/
theorem halfUnit_fails : bind halfUnit [] = .ok (bindAll halfUnit []).value ∧
    (∃ last, FailsAt (.start (bindAll halfUnit []).value 0 1 (.object "Shop.Desk") [] "") last
      ⟨"Shop.Desk.Half", .divideByZero⟩ "a") ∧
    ∃ last, FailsAt (.start (bindAll halfUnit []).value 0 1 (.object "Shop.Desk") []
      ⟨"", [.fails "" "broken pipe"]⟩) last ⟨"Shop.Desk.Main", .notWritten "broken pipe"⟩ "" := by
  obtain ⟨hfails, -⟩ := failures_passed_on (bindAll halfUnit []).value
  refine ⟨bind_of_clean (by decide +kernel), ?_, ?_⟩
  · have hrun : failsWith (callMethod 20 (bindAll halfUnit []).value 0 1 (.object "Shop.Desk") [])
        "" ⟨"Shop.Desk.Half", .divideByZero⟩ "a" = true := by decide +kernel
    obtain ⟨w, hrun, hafter⟩ := exists_of_failsWith hrun
    rw [← hafter]
    exact hfails 0 1 20 (.object "Shop.Desk") [] "" _ w hrun
  · have hrun : failsWith (callMethod 20 (bindAll halfUnit []).value 0 1 (.object "Shop.Desk") [])
        ⟨"", [.fails "" "broken pipe"]⟩ ⟨"Shop.Desk.Main", .notWritten "broken pipe"⟩ "" = true := by
      decide +kernel
    obtain ⟨w, hrun, hafter⟩ := exists_of_failsWith hrun
    rw [← hafter]
    exact hfails 0 1 20 (.object "Shop.Desk") [] ⟨"", [.fails "" "broken pipe"]⟩ _ w hrun

end Dossier.Script
