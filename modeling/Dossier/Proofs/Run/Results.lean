import Dossier.Proofs.Binding.Results
import Dossier.Proofs.Run.Encapsulation
import Dossier.Proofs.Run.Exits
import Dossier.Proofs.Run.Fuel
import Mathlib.Logic.Relation

/-!
# Results of runs

A method that owes a result gives one, fails, or runs for ever: it does not come to the end of its
body.

* `Point.GivenBack` says where the value comes from with which code ends its method: in the run of
  the body, a statement is come by that gives it back.  `Telling fuel` says this of all code with
  such an end; there is one lemma for each function that runs statements.
* `Point.Returns` says that this statement has a value, which it has if the method owes a result.
* `owed_result_given` puts this together with `exits`, for the methods of an accepted program and for
  what is returned by a call of one.
-/

set_option autoImplicit false

namespace Dossier.Script

/-! ## Within a body -/

/-- The statements of code, at every depth. -/
def Code.nested : Code → List BoundStmt
  | .stmt s => s.nested
  | .stmts ss => nestedIn ss
  | _ => []

namespace Point

/-- The second point comes after the first one, or is it, in the same run of a body. -/
def Within : Point → Point → Prop := Relation.ReflTransGen fun pt pt' ↦ pt.Step pt' ∧ pt.Stays pt'

/-- A step from statements stays in the body. -/
theorem Step.within_of_stmt {pt pt' : Point} (h : pt.Step pt') {s : BoundStmt}
    (hc : pt.code = .stmt s) : pt.Within pt' := by
  refine .single ⟨h, fun ci mi es hc' ↦ ?_⟩
  cases hc.symm.trans hc'

theorem Step.within_of_stmts {pt pt' : Point} (h : pt.Step pt') {ss : List BoundStmt}
    (hc : pt.code = .stmts ss) : pt.Within pt' := by
  refine .single ⟨h, fun ci mi es hc' ↦ ?_⟩
  cases hc.symm.trans hc'

/-- **A step within a body leads to statements of the code.** -/
theorem Step.nested {pt pt' : Point} (h : pt.Step pt') (hstay : pt.Stays pt') :
    pt'.code.nested ⊆ pt.code.nested := by
  cases h with
  | call hc _ _ hstart =>
    obtain ⟨-, slots, w', -, rfl⟩ := hstart
    exact absurd (hstay _ _ _ hc) (by simp)
  | loopAgain => exact List.Subset.refl _
  | otherStmts hc _ => simp [hc, Code.nested, nestedIn]
  | _ hc => simp [hc, go, Code.nested, BoundStmt.nested, nestedIn]

theorem Within.nested {pt pt' : Point} (h : pt.Within pt') :
    pt'.code.nested ⊆ pt.code.nested := by
  induction h with
  | refl => exact List.Subset.refl _
  | tail _ hs ih => exact List.Subset.trans (hs.1.nested hs.2) ih

/-! ## Where a result comes from -/

/-- What a statement at the point gives back, with or without a value, and the machine after it. -/
def GivesBack (pt : Point) (value : Option BoundExpr) (v : Value) (w : Machine) : Prop :=
  match value with
  | none => v = .void ∧ w = pt.machine
  | some e => pt.Gives e v w

/-- In the run of the body a statement is come by, at the point or after it, that gives the value back;
it runs in these slots and leaves this machine. -/
def GivenBack (pt : Point) (slots : Slots) (v : Value) (w : Machine) : Prop :=
  ∃ pt' value, pt.Within pt' ∧ pt'.code = .stmt (.giveBack value) ∧ pt'.slots = slots ∧
    pt'.GivesBack value v w

/-- The same, of a statement with a value. -/
def Returns (pt : Point) (slots : Slots) (v : Value) (w : Machine) : Prop :=
  ∃ pt' e, pt.Within pt' ∧ pt'.code = .stmt (.giveBack (some e)) ∧ pt'.slots = slots ∧
    pt'.Gives e v w

/-- Where a run has ended the method, from this machine, the value has been given back. -/
def Tells (pt : Point) (x : Run (Slots × Flow)) (w : Machine) : Prop :=
  ∀ slots v w', x w = .ok (slots, .result v) w' → pt.GivenBack slots v w'

namespace Tells

variable {pt : Point} {w : Machine}

protected theorem throw (halt : Halt) : pt.Tells (throw halt) w := by
  intro slots v w' hend
  cases hend

/-- Where the next statement follows, nothing has been given back. -/
protected theorem next (slots : Slots) : pt.Tells (pure (slots, .next)) w := by
  intro slots' v w' hend
  cases hend

/-- **A step and what follows it** from where the step ends. -/
protected theorem bind {α : Type} {x : Run α} {f : α → Run (Slots × Flow)}
    (h : ∀ v w₁, x w = .ok v w₁ → pt.Tells (f v) w₁) : pt.Tells (x >>= f) w := by
  intro slots v w' hend
  obtain ⟨v₁, w₁, hx, hrest⟩ := exists_of_bind_ok hend
  exact h v₁ w₁ hx slots v w' hrest

/-- What is told at a later point of the body is told before it. -/
theorem before {pt' : Point} {x : Run (Slots × Flow)} (hwithin : pt.Within pt')
    (h : pt'.Tells x w) : pt.Tells x w := by
  intro slots v w' hend
  obtain ⟨pt'', value, hwithin', hrest⟩ := h slots v w' hend
  exact ⟨pt'', value, hwithin.trans hwithin', hrest⟩

end Tells

end Point

/-- What is proved of the functions that run statements, at a fuel. -/
structure Telling (fuel : Nat) : Prop where
  execute : ∀ {pt : Point} {s : BoundStmt}, pt.code = .stmt s →
    pt.Tells (Script.execute fuel pt.activation pt.slots s) pt.machine
  executeAll : ∀ {pt : Point} {ss : List BoundStmt}, pt.code = .stmts ss →
    pt.Tells (Script.executeAll fuel pt.activation pt.slots ss) pt.machine
  executeLoop : ∀ {pt : Point} {c : BoundExpr} {body : List BoundStmt},
    pt.code = .stmt (.loop c body) →
    pt.Tells (Script.executeLoop fuel pt.activation pt.slots c body) pt.machine

namespace Telling

variable {fuel : Nat} {pt : Point}

theorem zero : Telling 0 where
  execute _ := .throw _
  executeAll _ := .throw _
  executeLoop _ := .throw _

theorem execute_succ (ih : Telling fuel) {s : BoundStmt} (hc : pt.code = .stmt s) :
    pt.Tells (Script.execute (fuel + 1) pt.activation pt.slots s) pt.machine := by
  cases s with
  | giveBack value =>
    intro slots v w' hend
    cases value with
    | none =>
      cases hend
      exact ⟨pt, none, .refl, hc, rfl, rfl, rfl⟩
    | some e =>
      obtain ⟨v₁, w₁, hv, hpure⟩ := exists_of_bind_ok hend
      cases hpure
      exact ⟨pt, some e, .refl, hc, rfl, fuel, hv⟩
  | branch c body otherwise =>
    refine .bind fun b w₁ hb ↦ ?_
    have hgives := gives_of_evaluateTruth hb
    cases b with
    | true =>
      have hwithin := (Point.Step.branchBody hc hgives).within_of_stmt hc
      exact .before hwithin (ih.executeAll rfl)
    | false =>
      have hwithin := (Point.Step.branchOtherwise hc hgives).within_of_stmt hc
      exact .before hwithin (ih.executeAll rfl)
  | loop c body => exact ih.executeLoop hc
  | block body =>
    have hwithin := (Point.Step.blockBody hc).within_of_stmt hc
    exact .before hwithin (ih.executeAll rfl)
  | throw e => exact .bind fun v w₁ _ ↦ .throw _
  | expr e => exact .bind fun v w₁ _ ↦ .next _
  | declare i type init =>
    have hstore (v : Value) (w : Machine) : pt.Tells (do
        let v ← pt.activation.initial type v
        let slots ← Activation.store pt.slots i v
        pure (slots, Flow.next)) w :=
      .bind fun v w₁ _ ↦ .bind fun slots w₂ _ ↦ .next _
    cases init with
    | some e => exact .bind fun v w₁ _ ↦ hstore v w₁
    | none =>
      cases type with
      | some t => exact hstore t.defaultValue _
      | none => exact hstore .null _
  | assign i type op e =>
    have hstore (v : Value) (w : Machine) : pt.Tells (do
        let v ← pt.activation.assigned type v
        let slots ← Activation.store pt.slots i v
        pure (slots, Flow.next)) w :=
      .bind fun v w₁ _ ↦ .bind fun slots w₂ _ ↦ .next _
    refine .bind fun v w₁ _ ↦ ?_
    cases op with
    | none => exact hstore v w₁
    | some op => exact .bind fun old w₂ _ ↦ .bind fun v' w₃ _ ↦ hstore v' w₃

theorem executeAll_succ (ih : Telling fuel) {ss : List BoundStmt} (hc : pt.code = .stmts ss) :
    pt.Tells (Script.executeAll (fuel + 1) pt.activation pt.slots ss) pt.machine := by
  cases ss with
  | nil => exact .next _
  | cons s rest =>
    refine .bind fun outcome w₁ hexec ↦ ?_
    obtain ⟨slots₁, flow⟩ := outcome
    cases flow with
    | next =>
      have hwithin := (Point.Step.otherStmts hc hexec).within_of_stmts hc
      exact .before hwithin (ih.executeAll rfl)
    | result v =>
      have hwithin := (Point.Step.firstStmt hc).within_of_stmts hc
      intro slots v' w' hend
      cases hend
      exact Point.Tells.before hwithin (ih.execute rfl) _ _ _ hexec

theorem executeLoop_succ (ih : Telling fuel) {c : BoundExpr} {body : List BoundStmt}
    (hc : pt.code = .stmt (.loop c body)) :
    pt.Tells (Script.executeLoop (fuel + 1) pt.activation pt.slots c body) pt.machine := by
  refine .bind fun b w₁ hb ↦ ?_
  cases b with
  | false => exact .next _
  | true =>
    have hgives := gives_of_evaluateTruth hb
    refine .bind fun outcome w₂ hbody ↦ ?_
    obtain ⟨slots₂, flow⟩ := outcome
    cases flow with
    | next =>
      have hwithin := (Point.Step.loopAgain hc hgives ⟨fuel, hbody⟩).within_of_stmt hc
      exact .before hwithin (ih.executeLoop hc)
    | result v =>
      have hwithin := (Point.Step.loopBody hc hgives).within_of_stmt hc
      intro slots v' w' hend
      cases hend
      exact Point.Tells.before hwithin (ih.executeAll rfl) _ _ _ hbody

end Telling

/-- **What ends a method has been given back in its body.** -/
theorem telling (fuel : Nat) : Telling fuel := by
  induction fuel with
  | zero => exact .zero
  | succ fuel ih =>
    exact {
      execute := ih.execute_succ
      executeAll := ih.executeAll_succ
      executeLoop := ih.executeLoop_succ }

/-! ## Methods that owe a result -/

/-- The body of a method that gives results ends with one, from a statement with a value. -/
theorem BoundMethod.GivesResults.returns {m : BoundMethod} (hm : m.GivesResults) {pt : Point}
    (hc : pt.code = .stmts m.body) {fuel : Nat} {slots : Slots} {flow : Flow} {w : Machine}
    (h : executeAll fuel pt.activation pt.slots m.body pt.machine = .ok (slots, flow) w) :
    ∃ v, flow = .result v ∧ pt.Returns slots v w := by
  obtain ⟨v, rfl⟩ := ((Script.exits fuel).executeAll hm.exits).ok h
  obtain ⟨pt', value, hwithin, hc', hslots, hgives⟩ := (telling fuel).executeAll hc slots v w h
  have hmem : .giveBack value ∈ nestedIn m.body := by
    have hsubset := hwithin.nested
    rw [hc, hc'] at hsubset
    exact hsubset (BoundStmt.mem_nested _)
  obtain ⟨e, rfl⟩ := Option.isSome_iff_exists.1 (hm.values _ hmem)
  exact ⟨v, rfl, pt', e, hwithin, hc', hslots, hgives⟩

theorem Activation.eq_ok_of_coerce {a : Activation} {t : ValueType} {v r : Value} {w w' : Machine}
    (h : a.coerce t v w = .ok r w') : t.coerce v = .ok r := by
  rw [coerce] at h
  cases hcoerce : t.coerce v with
  | ok r' =>
    rw [hcoerce] at h
    cases h
    rfl
  | error e =>
    rw [hcoerce] at h
    cases h

/-- A call that returns has run the body of its method, and what the body has ended with is sent to
the type of the result. -/
theorem exists_starts_of_callMethod {p : BoundProgram} {ci mi fuel : Nat} {m : BoundMethod}
    (hm : p.method? ci mi = some m) (howed : m.returns ≠ .void) {self r : Value}
    {args : List Value} {w w' : Machine} (h : callMethod fuel p ci mi self args w = .ok r w') :
    ∃ pt fuel' slots flow w₁, Starts (calleeOf p m self) args w pt ∧ pt.code = .stmts m.body ∧
      executeAll fuel' pt.activation pt.slots m.body pt.machine = .ok (slots, flow) w₁ ∧
      ∀ v, flow = .result v → m.returns.coerce v = .ok r := by
  cases fuel with
  | zero => cases h
  | succ fuel =>
    by_cases hroom : w.depth < maxCallDepth
    · rw [callMethod_of_room hm hroom] at h
      split at h
      · rename_i r' w₂ hrun
        cases h
        cases fuel with
        | zero => cases hrun
        | succ fuel =>
          obtain ⟨slots, w₀, hslots, hbody⟩ := exists_of_bind_ok hrun
          obtain ⟨⟨slots', flow⟩, w₁, hexec, hend⟩ := exists_of_bind_ok hbody
          refine ⟨_, fuel, slots', flow, w₁, ⟨hroom, slots, w₀, hslots, rfl⟩, rfl, hexec, ?_⟩
          rintro v rfl
          change (if m.returns = .void then pure .void
            else (calleeOf p m self).coerce m.returns v : Run Value) w₁ = _ at hend
          rw [if_neg howed] at hend
          exact Activation.eq_ok_of_coerce hend
      · cases h
    · rw [callMethod_of_full hm (Nat.le_of_not_lt hroom)] at h
      cases h

/-- **A method that owes a result does not come to the end of its body.**  Whatever it is called on
and with, its body ends with a value that a statement in it gives back, or fails, or runs for ever;
and what a call of it returns is such a value, sent to the type of the result. -/
theorem owed_result_given {u : CompileUnit} {refs : List String} {p : BoundProgram}
    (h : bind u refs = .ok p) {ci mi : Nat} {m : BoundMethod} (hm : p.method? ci mi = some m)
    (howed : m.returns ≠ .void) (self : Value) (args : List Value) (w : Machine) :
    (∀ pt, Starts (calleeOf p m self) args w pt →
      (∀ fuel slots flow w',
        executeAll fuel pt.activation pt.slots m.body pt.machine = .ok (slots, flow) w' →
          ∃ v, flow = .result v ∧ pt.Returns slots v w') ∧
      ((∃ fuel slots v w',
          executeAll fuel pt.activation pt.slots m.body pt.machine = .ok (slots, .result v) w' ∧
            pt.Returns slots v w') ∨
        (∃ fuel f w',
          executeAll fuel pt.activation pt.slots m.body pt.machine = .error (.failure f) w') ∨
        ∀ fuel, ∃ w',
          executeAll fuel pt.activation pt.slots m.body pt.machine = .error .outOfFuel w')) ∧
    ∀ fuel r w', callMethod fuel p ci mi self args w = .ok r w' →
      ∃ pt slots v w₁, Starts (calleeOf p m self) args w pt ∧ pt.Returns slots v w₁ ∧
        m.returns.coerce v = .ok r := by
  have hp := wellFormed_of_bind h
  have hgives := givesResults_of_bind h hm howed
  refine ⟨fun pt hstart ↦ ?_, fun fuel r w' hcall ↦ ?_⟩
  · have hgood := Point.Good.start hp hm hstart
    have hc : pt.code = .stmts m.body := by
      obtain ⟨-, slots, w', -, rfl⟩ := hstart
      rfl
    have hends (fuel : Nat) := (sound hp fuel).executeAll hgood.program hgood.frame
      (hgood.wellFormed hc)
    refine ⟨fun fuel slots flow w' hend ↦ hgives.returns hc hend, ?_⟩
    by_cases hforever : ∀ fuel, ∃ w',
        executeAll fuel pt.activation pt.slots m.body pt.machine = .error .outOfFuel w'
    · exact .inr (.inr hforever)
    · obtain ⟨fuel, hfuel⟩ := not_forall.1 hforever
      cases hend : executeAll fuel pt.activation pt.slots m.body pt.machine with
      | ok outcome w' =>
        obtain ⟨slots, flow⟩ := outcome
        obtain ⟨v, rfl, hreturns⟩ := hgives.returns hc hend
        exact .inl ⟨fuel, slots, v, w', hend, hreturns⟩
      | error halt w' =>
        cases halt with
        | failure f => exact .inr (.inl ⟨fuel, f, w', hend⟩)
        | stuck => exact absurd ((hends fuel).error hend) id
        | outOfFuel => exact absurd ⟨w', hend⟩ hfuel
  · obtain ⟨pt, fuel', slots, flow, w₁, hstart, hc, hexec, hcoerce⟩ :=
      exists_starts_of_callMethod hm howed hcall
    obtain ⟨v, hv, hreturns⟩ := hgives.returns hc hexec
    exact ⟨pt, slots, v, w₁, hstart, hreturns, hcoerce v hv⟩

/-- The loop of the small unit is followed by the statement that gives the sum back. -/
theorem smallUnit_result_given : ∃ m pt slots v w,
    bind smallUnit [] = .ok (bindAll smallUnit []).value ∧
    (bindAll smallUnit []).value.method? 0 1 = some m ∧ m.returns ≠ .void ∧
    Starts (calleeOf (bindAll smallUnit []).value m (.object "Shop.Till")) [] .fresh pt ∧
    pt.Returns slots v w ∧ m.returns.coerce v = .ok (.int 3) := by
  have hm : ((bindAll smallUnit []).value.method? 0 1).map (fun m ↦ m.returns) = some .int := by
    decide +kernel
  rw [Option.map_eq_some_iff] at hm
  obtain ⟨m, hm, hreturns⟩ := hm
  have howed : m.returns ≠ .void := by simp [hreturns]
  have hrun : givesInt (callMethod ampleFuel (bindAll smallUnit []).value 0 1
      (.object "Shop.Till") []) 3 = true := by decide +kernel
  obtain ⟨w', hcall⟩ := exists_of_givesInt hrun
  obtain ⟨-, hreturned⟩ :=
    owed_result_given bind_smallUnit hm howed (.object "Shop.Till") [] .fresh
  obtain ⟨pt, slots, v, w, hstart, hreturns, hcoerce⟩ := hreturned ampleFuel _ w' hcall
  exact ⟨m, pt, slots, v, w, bind_smallUnit, hm, howed, hstart, hreturns, hcoerce⟩

end Dossier.Script
