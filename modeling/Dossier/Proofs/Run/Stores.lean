import Dossier.Proofs.Run.Depends
import Dossier.Proofs.Run.Preservation

/-!
# Frames without void values

A frame is filled from arguments and defaults, and then by declarations and assignments.  All of them
but one look at what they store.

* Parameters and locals with a type take a value through `ValueType.coerce`, which refuses the result
  of a void method; declarations without a type refuse it as well, and no operator gives one.
* A plain assignment to a local without a type looks at nothing.  `Point.StoresVoid` says that one
  with a void value is come by; the points in `Voidless` do without.
* `LeavesNoVoid` goes through a run step by step, and `KeepsNoVoid` states for the functions that
  change slots that they bring no void value into a frame there.
* `Voidless.notMem` is the result for all frames that a run comes by.
-/

set_option autoImplicit false

namespace Dossier.Script

/-! ## Void values -/

theorem ValueType.ne_void_of_holds {t : ValueType} (h : t ≠ .void) {v : Value} (hv : t.Holds v) :
    v ≠ .void := (t.eq_void_iff_of_holds hv).not.2 h

namespace BinaryOp

theorem onFloats_ne_void {op : BinaryOp} {f : Float → Float → Value} (hf : ∀ x y, f x y ≠ .void)
    {v w r : Value} (h : op.onFloats f v w = .ok r) : r ≠ .void := by
  rw [onFloats] at h
  split at h
  · cases h
    exact hf _ _
  · cases h

theorem onNumbers_ne_void {op : BinaryOp} {f : Int64 → Int64 → Except Fault Value}
    {g : Float → Float → Value} (hf : ∀ a b r, f a b = .ok r → r ≠ .void)
    (hg : ∀ x y, g x y ≠ .void) {v w r : Value} (h : op.onNumbers f g v w = .ok r) :
    r ≠ .void := by
  unfold onNumbers at h
  split at h
  · exact hf _ _ _ h
  · exact onFloats_ne_void hg h

theorem dividing_ne_void {f : Int64 → Int64 → Int64} {a b : Int64} {r : Value}
    (h : dividing f a b = .ok r) : r ≠ .void := by
  rw [dividing] at h
  split at h
  · cases h
  · cases h
    simp

theorem onBools_ne_void {op : BinaryOp} {f : Bool → Bool → Bool} {v w r : Value}
    (h : op.onBools f v w = .ok r) : r ≠ .void := by
  unfold onBools at h
  split at h
  · cases h
    simp
  · cases h

theorem sum_ne_void {v w r : Value} (h : sum v w = .ok r) : r ≠ .void := by
  rw [sum] at h
  split at h
  · cases h
    simp
  · exact onNumbers_ne_void (by simp) (by simp) h

/-- **No operator gives a void value.** -/
theorem apply_ne_void {op : BinaryOp} {v w r : Value} (h : op.apply v w = .ok r) : r ≠ .void := by
  cases op with
  | add => exact sum_ne_void h
  | sub | mul => exact onNumbers_ne_void (by simp) (by simp) h
  | div | mod => exact onNumbers_ne_void (fun _ _ _ ↦ dividing_ne_void) (by simp) h
  | eq | ne =>
    cases h
    simp
  | lt | le | gt | ge => exact onFloats_ne_void (by simp) h
  | and | or => exact onBools_ne_void h

end BinaryOp

/-! ## The operations of a run -/

/-- From this machine, a result of the run has no void value in its frame. -/
def LeavesNoVoid (x : Run (Slots × Flow)) (w : Machine) : Prop :=
  ∀ slots flow w', x w = .ok (slots, flow) w' → .void ∉ slots

namespace LeavesNoVoid

variable {w : Machine} {slots : Slots}

protected theorem pure (h : .void ∉ slots) (flow : Flow) : LeavesNoVoid (pure (slots, flow)) w := by
  intro slots' flow' w' hend
  cases hend
  exact h

theorem throw (halt : Halt) : LeavesNoVoid (throw halt) w := by
  intro slots flow w' hend
  cases hend

/-- **A step and what follows it** from where the step ends. -/
protected theorem bind {α : Type} {x : Run α} {f : α → Run (Slots × Flow)}
    (h : ∀ v w₁, x w = .ok v w₁ → LeavesNoVoid (f v) w₁) : LeavesNoVoid (x >>= f) w := by
  intro slots flow w' hend
  obtain ⟨v, w₁, hx, hrest⟩ := exists_of_bind_ok hend
  exact h v w₁ hx slots flow w' hrest

end LeavesNoVoid

theorem notMem_setIfInBounds {slots : Slots} (h : .void ∉ slots) (i : Nat) {v : Value}
    (hv : v ≠ .void) : .void ∉ slots.setIfInBounds i v := by
  intro hmem
  rcases Array.mem_or_eq_of_mem_setIfInBounds hmem with hmem | heq
  · exact h hmem
  · exact hv heq.symm

theorem Supply.notMem_void {ps : List BoundParam} {vs : List Value} (h : Supply ps vs)
    (hps : ∀ q ∈ ps, q.type ≠ .void) : .void ∉ vs := by
  induction h with
  | nil => exact List.not_mem_nil
  | cons hv _ ih =>
    obtain ⟨hq, hps⟩ := List.forall_mem_cons.1 hps
    rw [List.mem_cons, not_or]
    exact ⟨(ValueType.ne_void_of_holds hq hv).symm, ih hps⟩

namespace Activation

variable {a : Activation} {type : Option ValueType} {v v' : Value} {w w' : Machine} {slots : Slots}

theorem coerce_ne_void {t : ValueType} (ht : t ≠ .void) (h : a.coerce t v w = .ok v' w') :
    v' ≠ .void := by
  have hends : Ends (a.coerce t v) t.Holds (Halt.Harmless True) := a.ends_coerce t v
  exact t.ne_void_of_holds ht (hends.ok h)

theorem initial_ne_void (ht : type ≠ some .void) (h : a.initial type v w = .ok v' w') :
    v' ≠ .void := by
  cases type with
  | some t => exact coerce_ne_void (fun hvoid ↦ ht (congrArg some hvoid)) h
  | none =>
    rw [initial] at h
    split at h
    · cases h
    · rename_i hvoid
      cases h
      exact v.isVoid_iff.not.1 hvoid

/-- An assignment keeps out a void value, if its local has a type or it does not have such a
value. -/
theorem assigned_ne_void (ht : type ≠ some .void) (hv : type = none → v ≠ .void)
    (h : a.assigned type v w = .ok v' w') : v' ≠ .void := by
  cases type with
  | some t => exact coerce_ne_void (fun hvoid ↦ ht (congrArg some hvoid)) h
  | none =>
    cases h
    exact hv rfl

theorem leavesNoVoid_store (h : .void ∉ slots) (i : Nat) (hv : v ≠ .void) :
    LeavesNoVoid (do
      let slots ← store slots i v
      pure (slots, Flow.next)) w := by
  refine .bind fun slots' w₁ hstore ↦ ?_
  rw [store] at hstore
  split at hstore
  · cases hstore
    exact .pure (notMem_setIfInBounds h i hv) _
  · cases hstore

/-- A declaration, once it has a value. -/
theorem leavesNoVoid_declared (h : .void ∉ slots) (i : Nat) (ht : type ≠ some .void) (v : Value) :
    LeavesNoVoid (do
      let v ← a.initial type v
      let slots ← store slots i v
      pure (slots, Flow.next)) w :=
  .bind fun _ _ hinitial ↦ leavesNoVoid_store h i (initial_ne_void ht hinitial)

/-- An assignment, once it has the value that its operator gives. -/
theorem leavesNoVoid_assigned (h : .void ∉ slots) (i : Nat) (ht : type ≠ some .void)
    (hv : type = none → v ≠ .void) :
    LeavesNoVoid (do
      let v ← a.assigned type v
      let slots ← store slots i v
      pure (slots, Flow.next)) w :=
  .bind fun _ _ hassigned ↦ leavesNoVoid_store h i (assigned_ne_void ht hv hassigned)

/-- **A frame starts without a void value.** -/
theorem notMem_of_slots {p : BoundProgram} (h : a.method.WellFormed p) {args : List Value}
    (hslots : a.slots args w = .ok slots w') : .void ∉ slots := by
  have hends : Ends (a.slots args) (fun slots ↦ .void ∉ slots) (fun _ ↦ True) := by
    refine ((a.ends_parameterSlots a.method.params args).mono (fun _ ↦ id) fun _ _ ↦ trivial).bind
      fun vs hvs ↦ .pure fun hmem ↦ ?_
    rw [Array.mem_append, List.mem_toArray, Array.mem_replicate] at hmem
    rcases hmem with hmem | ⟨-, hmem⟩
    · exact hvs.notMem_void h.params hmem
    · cases hmem
  exact hends.ok hslots

end Activation

/-! ## Along a run -/

namespace Point

/-- A plain assignment to a local without a type has a void value at the point. -/
def StoresVoid (pt : Point) : Prop :=
  ∃ i e w, pt.code = .stmt (.assign i none none e) ∧ pt.Gives e .void w

end Point

/-- The points that are come by, in a program, without a void value for a plain assignment. -/
structure Voidless (p : BoundProgram) (reached : Point → Prop) : Prop where
  /-- A step from a point that is reached leads to another one. -/
  step : ∀ {pt pt' : Point}, reached pt → pt.Step pt' → reached pt'
  /-- All of them are good. -/
  good : ∀ {pt : Point}, reached pt → pt.Good p
  /-- None of them stores a void value. -/
  clean : ∀ {pt : Point}, reached pt → ¬ pt.StoresVoid

/-- What is proved of the functions that change slots, at a fuel. -/
structure KeepsNoVoid (reached : Point → Prop) (fuel : Nat) : Prop where
  execute : ∀ {pt : Point} {s : BoundStmt}, reached pt → pt.code = .stmt s → .void ∉ pt.slots →
    LeavesNoVoid (Script.execute fuel pt.activation pt.slots s) pt.machine
  executeAll : ∀ {pt : Point} {ss : List BoundStmt}, reached pt → pt.code = .stmts ss →
    .void ∉ pt.slots → LeavesNoVoid (Script.executeAll fuel pt.activation pt.slots ss) pt.machine
  executeLoop : ∀ {pt : Point} {c : BoundExpr} {body : List BoundStmt}, reached pt →
    pt.code = .stmt (.loop c body) → .void ∉ pt.slots →
    LeavesNoVoid (Script.executeLoop fuel pt.activation pt.slots c body) pt.machine

namespace KeepsNoVoid

variable {p : BoundProgram} {reached : Point → Prop} {fuel : Nat} {pt : Point}

theorem zero (reached : Point → Prop) : KeepsNoVoid reached 0 where
  execute _ _ _ := .throw _
  executeAll _ _ _ := .throw _
  executeLoop _ _ _ := .throw _

/-- **A statement brings no void value into its frame.** -/
theorem execute_succ (ih : KeepsNoVoid reached fuel) (hp : p.WellFormed) (hr : Voidless p reached)
    {s : BoundStmt} (h : reached pt) (hc : pt.code = .stmt s) (hslots : .void ∉ pt.slots) :
    LeavesNoVoid (Script.execute (fuel + 1) pt.activation pt.slots s) pt.machine := by
  have hwf := (hr.good h).wellFormed hc
  cases s with
  | declare i type init =>
    cases hwf with
    | declare _ _ htype _ =>
      have hstore (v : Value) (w : Machine) :=
        Activation.leavesNoVoid_declared (a := pt.activation) (w := w) hslots i htype v
      cases init with
      | some e => exact .bind fun v w₁ _ ↦ hstore v w₁
      | none =>
        cases type with
        | some t => exact hstore t.defaultValue _
        | none => exact hstore .null _
  | assign i type op e =>
    have htype : type ≠ some .void := by
      obtain ⟨ci, mi, hm⟩ := (hr.good h).method
      cases hwf with
      | assign hl _ _ => exact (hp ci mi _ hm).type_ne_void ((hr.good h).known _ hl)
    refine .bind fun v w₁ hv ↦ ?_
    cases op with
    | none =>
      -- a void value here would be one that the point stores
      refine Activation.leavesNoVoid_assigned hslots i htype fun hnone hvoid ↦ ?_
      subst hnone hvoid
      exact hr.clean h ⟨i, e, w₁, hc, fuel, hv⟩
    | some op =>
      refine .bind fun old w₂ _ ↦ .bind fun v' w₃ hlift ↦ ?_
      refine Activation.leavesNoVoid_assigned hslots i htype fun _ ↦ ?_
      cases happly : op.apply old v with
      | ok r =>
        rw [happly] at hlift
        cases hlift
        exact BinaryOp.apply_ne_void happly
      | error fault =>
        rw [happly] at hlift
        cases hlift
  | giveBack value =>
    cases value with
    | none => exact .pure hslots _
    | some e => exact .bind fun v w₁ _ ↦ .pure hslots _
  | branch c body otherwise =>
    refine .bind fun b w₁ hb ↦ ?_
    have hgives := gives_of_evaluateTruth hb
    cases b with
    | true => exact ih.executeAll (hr.step h (.branchBody hc hgives)) rfl hslots
    | false => exact ih.executeAll (hr.step h (.branchOtherwise hc hgives)) rfl hslots
  | loop c body => exact ih.executeLoop h hc hslots
  | throw e => exact .bind fun v w₁ _ ↦ .throw _
  | block body =>
    have hbody := ih.executeAll (hr.step h (.blockBody hc)) rfl hslots
    exact hbody
  | expr e => exact .bind fun v w₁ _ ↦ .pure hslots _

theorem executeAll_succ (ih : KeepsNoVoid reached fuel) (hr : Voidless p reached)
    {ss : List BoundStmt} (h : reached pt) (hc : pt.code = .stmts ss) (hslots : .void ∉ pt.slots) :
    LeavesNoVoid (Script.executeAll (fuel + 1) pt.activation pt.slots ss) pt.machine := by
  cases ss with
  | nil => exact .pure hslots _
  | cons s ss =>
    refine .bind fun outcome w₁ hexec ↦ ?_
    obtain ⟨slots, flow⟩ := outcome
    have hslots' := ih.execute (hr.step h (.firstStmt hc)) rfl hslots slots flow w₁ hexec
    cases flow with
    | next => exact ih.executeAll (hr.step h (.otherStmts hc hexec)) rfl hslots'
    | result v => exact .pure hslots' _

theorem executeLoop_succ (ih : KeepsNoVoid reached fuel) (hr : Voidless p reached)
    {c : BoundExpr} {body : List BoundStmt} (h : reached pt)
    (hc : pt.code = .stmt (.loop c body)) (hslots : .void ∉ pt.slots) :
    LeavesNoVoid (Script.executeLoop (fuel + 1) pt.activation pt.slots c body) pt.machine := by
  refine .bind fun b w₁ hb ↦ ?_
  cases b with
  | false => exact .pure hslots _
  | true =>
    have hgives := gives_of_evaluateTruth hb
    refine .bind fun outcome w₂ hbody ↦ ?_
    obtain ⟨slots, flow⟩ := outcome
    have hslots' := ih.executeAll (hr.step h (.loopBody hc hgives)) rfl hslots slots flow w₂ hbody
    cases flow with
    | next => exact ih.executeLoop (hr.step h (.loopAgain hc hgives ⟨fuel, hbody⟩)) hc hslots'
    | result v => exact .pure hslots' _

end KeepsNoVoid

/-- Where no void value is stored, none gets into a frame. -/
theorem Voidless.keepsNoVoid {p : BoundProgram} (hp : p.WellFormed) {reached : Point → Prop}
    (hr : Voidless p reached) (fuel : Nat) : KeepsNoVoid reached fuel := by
  induction fuel with
  | zero => exact .zero reached
  | succ fuel ih =>
    exact {
      execute := ih.execute_succ hp hr
      executeAll := ih.executeAll_succ hr
      executeLoop := ih.executeLoop_succ hr }

/-- **No frame that is come by holds a void value** then. -/
theorem Voidless.notMem {p : BoundProgram} (hp : p.WellFormed) {ci mi : Nat} {self : Value}
    {args : List Value} {w : Machine} (h : Voidless p (Reaches p ci mi self args w)) {pt : Point}
    (hr : Reaches p ci mi self args w pt) : .void ∉ pt.slots := by
  induction hr with
  | @start m pt hm hstart =>
    obtain ⟨-, slots, w', hslots, rfl⟩ := hstart
    exact Activation.notMem_of_slots (a := calleeOf p m self) (hp _ _ _ hm) hslots
  | @step pt pt' hr hs ih =>
    cases hs with
    | call _ _ hm hstart =>
      obtain ⟨-, slots, w', hslots, rfl⟩ := hstart
      rw [hr.program] at hm
      exact Activation.notMem_of_slots (hp _ _ _ hm) hslots
    | loopAgain hc hgives hpasses =>
      obtain ⟨fuel, hbody⟩ := hpasses
      have hkeeps := (h.keepsNoVoid hp fuel).executeAll (h.step hr (.loopBody hc hgives)) rfl ih
      exact hkeeps _ _ _ hbody
    | @otherStmts s ss fuel slots w' hc hexec =>
      have hkeeps := (h.keepsNoVoid hp fuel).execute (h.step hr (.firstStmt hc)) rfl ih
      exact hkeeps _ _ _ hexec
    | _ => exact ih

end Dossier.Script
