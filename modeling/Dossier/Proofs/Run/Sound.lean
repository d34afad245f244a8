import Dossier.Proofs.Run.Frames

/-!
# Well-formed programs run soundly

The invariant of a run of a well-formed program, for all functions of the interpreter at once.

* Code that runs in a `Frame` leaves one behind, in which what it declared is known as well.
* It refers to nothing that is not there.
* No call within it lacks an argument, if the defaults of all methods trail.
* What a method returns is of the type of its result.

`Sound p fuel` states this for one fuel; there is one lemma for each function, which needs it only
for the fuel below, and `sound` joins them by induction on the fuel.
-/

set_option autoImplicit false

namespace Dossier.Script

/-- The frame after a statement: what it declared is known, unless it ended the method. -/
def After (size : Nat) (known : List Local) (stmt : BoundStmt) (r : Slots × Flow) : Prop :=
  match r.2 with
  | .next => Frame size (stmt.known known) r.1
  | .result _ => Frame size known r.1

/-- Harmless, with enough arguments for every call. -/
abbrev BoundProgram.Safe (p : BoundProgram) : Halt → Prop := Halt.Harmless p.DefaultsTrail

/-- Harmless, with enough arguments for every call but perhaps that of the method itself. -/
abbrev BoundProgram.SafeCall (p : BoundProgram) (m : BoundMethod) (args : List Value) :
    Halt → Prop :=
  Halt.Harmless (p.DefaultsTrail ∧ m.required ≤ args.length)

/-- What is proved of the interpreter at a fuel. -/
structure Sound (p : BoundProgram) (fuel : Nat) : Prop where
  evaluate : ∀ {a : Activation} {slots : Slots} {known : List Local} {e : BoundExpr},
    a.program = p → Frame a.method.frameSize known slots → e.WellFormed p a.method.frameSize known →
    Ends (Script.evaluate fuel a slots e) (fun _ ↦ True) p.Safe
  evaluateTruth : ∀ {a : Activation} {slots : Slots} {known : List Local} {e : BoundExpr},
    a.program = p → Frame a.method.frameSize known slots → e.WellFormed p a.method.frameSize known →
    Ends (Script.evaluateTruth fuel a slots e) (fun _ ↦ True) p.Safe
  evaluateArgs : ∀ {a : Activation} {slots : Slots} {known : List Local} {es : List BoundExpr},
    a.program = p → Frame a.method.frameSize known slots →
    (∀ e ∈ es, e.WellFormed p a.method.frameSize known) →
    Ends (Script.evaluateArgs fuel a slots es) (fun vs ↦ vs.length = es.length) p.Safe
  callMethod : ∀ {ci mi : Nat} {m : BoundMethod} (self : Value) (args : List Value),
    p.method? ci mi = some m →
    Ends (Script.callMethod fuel p ci mi self args) m.returns.Holds (p.SafeCall m args)
  runMethod : ∀ {a : Activation} {ci mi : Nat} (args : List Value),
    a.program = p → p.method? ci mi = some a.method →
    Ends (Script.runMethod fuel a args) a.method.returns.Holds (p.SafeCall a.method args)
  execute : ∀ {a : Activation} {slots : Slots} {known : List Local} {stmt : BoundStmt},
    a.program = p → Frame a.method.frameSize known slots →
    stmt.WellFormed p a.method.frameSize known →
    Ends (Script.execute fuel a slots stmt) (After a.method.frameSize known stmt) p.Safe
  executeAll : ∀ {a : Activation} {slots : Slots} {known : List Local} {stmts : List BoundStmt},
    a.program = p → Frame a.method.frameSize known slots →
    AllWellFormed p a.method.frameSize known stmts →
    Ends (Script.executeAll fuel a slots stmts) (fun r ↦ Frame a.method.frameSize known r.1) p.Safe
  executeLoop : ∀ {a : Activation} {slots : Slots} {known : List Local} {condition : BoundExpr}
    {body : List BoundStmt}, a.program = p → Frame a.method.frameSize known slots →
    condition.WellFormed p a.method.frameSize known →
    AllWellFormed p a.method.frameSize known body →
    Ends (Script.executeLoop fuel a slots condition body)
      (fun r ↦ Frame a.method.frameSize known r.1) p.Safe

namespace Sound

variable {p : BoundProgram} {fuel : Nat} {a : Activation} {slots : Slots} {known : List Local}
  {e condition : BoundExpr} {es : List BoundExpr} {stmt : BoundStmt} {stmts body : List BoundStmt}

theorem zero (p : BoundProgram) : Sound p 0 where
  evaluate _ _ _ := .throw trivial
  evaluateTruth _ _ _ := .throw trivial
  evaluateArgs _ _ _ := .throw trivial
  callMethod _ _ _ := .throw trivial
  runMethod _ _ _ := .throw trivial
  execute _ _ _ := .throw trivial
  executeAll _ _ _ := .throw trivial
  executeLoop _ _ _ _ := .throw trivial

/-! ## Expressions -/

theorem evaluate_succ (ih : Sound p fuel) (ha : a.program = p)
    (hf : Frame a.method.frameSize known slots) (he : e.WellFormed p a.method.frameSize known) :
    Ends (Script.evaluate (fuel + 1) a slots e) (fun _ ↦ True) p.Safe := by
  cases he with
  | const v => exact .pure trivial
  | slot hl _ => exact (hf.ends_load hl).weaken fun _ _ ↦ trivial
  | self => exact .pure trivial
  | unary h =>
    exact (ih.evaluate ha hf h).bind fun v _ ↦ a.ends_lift (UnaryOp.supplied_apply _ v)
  | @binary op left right hl hr =>
    have hstrict := (ih.evaluate ha hf hl).bind fun v _ ↦
      (ih.evaluate ha hf hr).bind fun w _ ↦ a.ends_lift (op.supplied_apply v w)
    have hright : Ends (do
        let b ← Script.evaluateTruth fuel a slots right
        pure (Value.bool b)) (fun _ ↦ True) p.Safe :=
      (ih.evaluateTruth ha hf hr).bind fun b _ ↦ .pure trivial
    cases op with
    | and =>
      refine (ih.evaluateTruth ha hf hl).bind fun b _ ↦ ?_
      cases b with
      | true => exact hright
      | false => exact .pure trivial
    | or =>
      refine (ih.evaluateTruth ha hf hl).bind fun b _ ↦ ?_
      cases b with
      | true => exact .pure trivial
      | false => exact hright
    | _ => exact hstrict
  | library hacc hargs =>
    exact (ih.evaluateArgs ha hf hargs).bind fun vs hvs ↦ a.ends_callLibrary (hvs ▸ hacc)
  | call hm hmin _ hargs =>
    refine (ih.evaluateArgs ha hf hargs).bind fun vs hvs ↦ ?_
    subst ha
    exact (ih.callMethod a.self vs hm).mono (fun _ _ ↦ trivial) fun halt hh ↦
      hh.mono fun htrail ↦ ⟨htrail, hvs ▸ hmin⟩

theorem evaluateTruth_succ (ih : Sound p fuel) (ha : a.program = p)
    (hf : Frame a.method.frameSize known slots) (he : e.WellFormed p a.method.frameSize known) :
    Ends (Script.evaluateTruth (fuel + 1) a slots e) (fun _ ↦ True) p.Safe :=
  (ih.evaluate ha hf he).bind fun v _ ↦ a.ends_truth v

theorem evaluateArgs_succ (ih : Sound p fuel) (ha : a.program = p)
    (hf : Frame a.method.frameSize known slots)
    (hes : ∀ e ∈ es, e.WellFormed p a.method.frameSize known) :
    Ends (Script.evaluateArgs (fuel + 1) a slots es) (fun vs ↦ vs.length = es.length) p.Safe := by
  cases es with
  | nil => exact .pure rfl
  | cons e es =>
    obtain ⟨he, hes⟩ := List.forall_mem_cons.1 hes
    refine (ih.evaluate ha hf he).bind fun v _ ↦ ?_
    cases v.isVoid with
    | true => exact a.ends_fail rfl
    | false =>
      exact (ih.evaluateArgs ha hf hes).bind fun vs hvs ↦
        .pure (by rw [List.length_cons, hvs, List.length_cons])

/-! ## Calls -/

theorem callMethod_succ (ih : Sound p fuel) {ci mi : Nat} {m : BoundMethod} (self : Value)
    (args : List Value) (hm : p.method? ci mi = some m) :
    Ends (Script.callMethod (fuel + 1) p ci mi self args) m.returns.Holds (p.SafeCall m args) := by
  intro w
  rcases Nat.lt_or_ge w.depth maxCallDepth with hroom | hfull
  · rw [callMethod_of_room hm hroom]
    have hends := ih.runMethod (a := calleeOf p m self) args rfl hm { w with depth := w.depth + 1 }
    cases hrun : Script.runMethod fuel (calleeOf p m self) args { w with depth := w.depth + 1 } with
    | ok v w' =>
      rw [hrun] at hends
      exact hends
    | error halt w' =>
      rw [hrun] at hends
      exact hends
  · rw [callMethod_of_full hm hfull]
    exact fun _ ↦ rfl

theorem runMethod_succ (ih : Sound p fuel) (hp : p.WellFormed) {ci mi : Nat} (args : List Value)
    (ha : a.program = p) (hm : p.method? ci mi = some a.method) :
    Ends (Script.runMethod (fuel + 1) a args) a.method.returns.Holds
      (p.SafeCall a.method args) := by
  have hwf := hp ci mi a.method hm
  have hslots : Ends (a.slots args) (Frame a.method.frameSize a.method.atStart)
      (p.SafeCall a.method args) :=
    (ends_slots hwf args).mono (fun _ ↦ id) fun halt hh ↦
      hh.mono fun h ↦ ⟨h.1 ci mi a.method hm, h.2⟩
  refine hslots.bind fun slots hf ↦ ?_
  have hbody : Ends (Script.executeAll fuel a slots a.method.body) (fun _ ↦ True)
      (p.SafeCall a.method args) :=
    (ih.executeAll ha hf hwf.body).mono (fun _ _ ↦ trivial) fun halt hh ↦ hh.mono And.left
  refine hbody.bind fun r _ ↦ ?_
  cases hr : decide (a.method.returns = .void) with
  | true =>
    rw [decide_eq_true_eq] at hr
    simp only [hr, if_true]
    exact .pure rfl
  | false =>
    rw [decide_eq_false_iff_not] at hr
    simp only [hr, if_false]
    exact a.ends_coerce _ _

/-! ## Statements -/

theorem execute_succ (ih : Sound p fuel) (ha : a.program = p)
    (hf : Frame a.method.frameSize known slots)
    (hs : stmt.WellFormed p a.method.frameSize known) :
    Ends (Script.execute (fuel + 1) a slots stmt) (After a.method.frameSize known stmt)
      p.Safe := by
  have hafter (r : Slots × Flow) (h : Frame a.method.frameSize known r.1)
      (hk : stmt.known known = known) : After a.method.frameSize known stmt r := by
    rw [After]
    split
    · rwa [hk]
    · exact h
  cases hs with
  | @declare _ i type init hi hfresh hvoid hinit =>
    have hstore (v : Value) : Ends (do
        let v ← a.initial type v
        let slots ← Activation.store slots i v
        pure (slots, Flow.next)) (After a.method.frameSize known (.declare i type init)) p.Safe :=
      (a.ends_initial type v).bind fun v' hv' ↦ (hf.ends_store hi v').bind fun _ h ↦
        .pure (h ▸ hf.declare hi hfresh hv')
    cases init with
    | some e => exact (ih.evaluate ha hf (hinit e rfl)).bind fun v _ ↦ hstore v
    | none =>
      cases type with
      | some t => exact hstore t.defaultValue
      | none => exact hstore .null
  | @assign _ l op value hl hlt hvalue =>
    have hstore (v : Value) : Ends (do
        let v ← a.assigned l.type v
        let slots ← Activation.store slots l.slot v
        pure (slots, Flow.next)) (After a.method.frameSize known (.assign l.slot l.type op value))
        p.Safe :=
      (a.ends_assigned l.type v).bind fun v' hv' ↦
        (hf.ends_store hlt v').bind fun _ h ↦ .pure (h ▸ hf.assign hl hv')
    refine (ih.evaluate ha hf hvalue).bind fun v _ ↦ ?_
    cases op with
    | none => exact hstore v
    | some op =>
      exact (hf.ends_load hl).bind fun old _ ↦
        (a.ends_lift (op.supplied_apply old v)).bind fun v' _ ↦ hstore v'
  | @giveBack _ value hvalue =>
    cases value with
    | none => exact .pure hf
    | some e => exact (ih.evaluate ha hf (hvalue e rfl)).bind fun v _ ↦ .pure hf
  | branch hcondition hbody hotherwise =>
    refine (ih.evaluateTruth ha hf hcondition).bind fun b _ ↦ ?_
    cases b with
    | true => exact (ih.executeAll ha hf hbody).weaken fun r hr ↦ hafter r hr rfl
    | false => exact (ih.executeAll ha hf hotherwise).weaken fun r hr ↦ hafter r hr rfl
  | loop hcondition hbody =>
    exact (ih.executeLoop ha hf hcondition hbody).weaken fun r hr ↦ hafter r hr rfl
  | throw hvalue =>
    refine (ih.evaluate ha hf hvalue).bind fun v _ ↦ a.ends_fail ?_
    cases v <;> rfl
  | block hbody => exact (ih.executeAll ha hf hbody).weaken fun r hr ↦ hafter r hr rfl
  | expr he => exact (ih.evaluate ha hf he).bind fun v _ ↦ .pure hf

theorem executeAll_succ (ih : Sound p fuel) (ha : a.program = p)
    (hf : Frame a.method.frameSize known slots)
    (hs : AllWellFormed p a.method.frameSize known stmts) :
    Ends (Script.executeAll (fuel + 1) a slots stmts)
      (fun r ↦ Frame a.method.frameSize known r.1) p.Safe := by
  cases hs with
  | nil => exact .pure hf
  | cons hfirst hrest =>
    refine (ih.execute ha hf hfirst).bind fun outcome hr ↦ ?_
    obtain ⟨slots', flow⟩ := outcome
    cases flow with
    | next => exact (ih.executeAll ha hr hrest).weaken fun r h ↦ h.outside
    | result v => exact .pure hr

theorem executeLoop_succ (ih : Sound p fuel) (ha : a.program = p)
    (hf : Frame a.method.frameSize known slots)
    (hcondition : condition.WellFormed p a.method.frameSize known)
    (hbody : AllWellFormed p a.method.frameSize known body) :
    Ends (Script.executeLoop (fuel + 1) a slots condition body)
      (fun r ↦ Frame a.method.frameSize known r.1) p.Safe := by
  refine (ih.evaluateTruth ha hf hcondition).bind fun b _ ↦ ?_
  cases b with
  | false => exact .pure hf
  | true =>
    refine (ih.executeAll ha hf hbody).bind fun outcome hr ↦ ?_
    obtain ⟨slots', flow⟩ := outcome
    cases flow with
    | next => exact ih.executeLoop ha hr hcondition hbody
    | result v => exact .pure hr

end Sound

/-- **Well-formed programs run soundly**, however much fuel there is. -/
theorem sound {p : BoundProgram} (hp : p.WellFormed) (fuel : Nat) : Sound p fuel := by
  induction fuel with
  | zero => exact .zero p
  | succ fuel ih =>
    exact {
      evaluate := ih.evaluate_succ
      evaluateTruth := ih.evaluateTruth_succ
      evaluateArgs := ih.evaluateArgs_succ
      callMethod := ih.callMethod_succ
      runMethod := ih.runMethod_succ hp
      execute := ih.execute_succ
      executeAll := ih.executeAll_succ
      executeLoop := ih.executeLoop_succ }

end Dossier.Script
