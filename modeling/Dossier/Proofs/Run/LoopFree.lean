import Dossier.Proofs.Binding.Results
import Dossier.Proofs.Run.Output
import Dossier.Proofs.Run.Safety

/-!
# Programs without loops

A run that does not come to an end is in a loop: without loops, recursion alone cannot keep it
going, because no more than `maxCallDepth` calls are open at a time.

* `EndsAt depth x` says of a run with fuel that, wherever so many calls are open, it has one and the
  same end from some fuel on, with as many open.  It goes along a run step by step (`EndsAt.bind`).
* Where the calls that code makes come to an end, so does the code, by induction on it
  (`endsAt_evaluate`, `endsAt_executeAll`).
* The calls that are made at a depth come to an end because those at the next one do, and at
  `maxCallDepth` all are refused (`endsAt_callMethod`).
-/

set_option autoImplicit false

namespace Dossier.Script

/-! ## Code without loops -/

/-- Is the statement itself a loop? -/
def BoundStmt.isLoop : BoundStmt → Bool
  | .loop _ _ => true
  | _ => false

/-- No statement is a loop, at any depth. -/
def LoopFree (ss : List BoundStmt) : Prop := ∀ s ∈ nestedIn ss, s.isLoop = false

/-- No method has a loop in its body. -/
def BoundProgram.LoopFree (p : BoundProgram) : Prop :=
  ∀ c ∈ p.classes, ∀ m ∈ c.methods, Script.LoopFree m.body

theorem BoundProgram.LoopFree.body {p : BoundProgram} (h : p.LoopFree) {ci mi : Nat}
    {m : BoundMethod} (hm : p.method? ci mi = some m) : Script.LoopFree m.body := by
  simp only [BoundProgram.method?, Option.bind_eq_bind, Option.bind_eq_some_iff] at hm
  obtain ⟨c, hc, hm⟩ := hm
  exact h c (List.mem_of_getElem? hc) m (List.mem_of_getElem? hm)

/-! ## Runs that come to an end -/

/-- Where so many calls are open, the run has one end from some fuel on, and as many are open
then. -/
def EndsAt {α : Type} (depth : Nat) (x : Nat → Run α) : Prop :=
  ∀ w, w.depth = depth → ∃ result w', result ≠ .error .outOfFuel ∧ w'.depth = depth ∧
    ∃ fuel, ∀ fuel', fuel ≤ fuel' → x fuel' w = endedWith result w'

namespace EndsAt

variable {α β : Type} {depth : Nat} {x : Nat → Run α}

protected theorem pure (v : α) : EndsAt depth fun _ ↦ (pure v : Run α) :=
  fun w hw ↦ ⟨.ok v, w, by simp, hw, 0, fun _ _ ↦ rfl⟩

protected theorem throw {halt : Halt} (h : halt ≠ .outOfFuel) :
    EndsAt depth fun _ ↦ (throw halt : Run α) :=
  fun w hw ↦ ⟨.error halt, w, by simpa using h, hw, 0, fun _ _ ↦ rfl⟩

/-- **A step and what follows it** have both come to their end from the larger of their fuels on. -/
protected theorem bind {f : Nat → α → Run β} (hx : EndsAt depth x)
    (hf : ∀ v, EndsAt depth fun n ↦ f n v) : EndsAt depth fun n ↦ x n >>= f n := by
  intro w hw
  obtain ⟨result, w₁, hne, hw₁, fuel, h⟩ := hx w hw
  have hbind (n : Nat) (hn : fuel ≤ n) :
      (x n >>= f n) w = match result with
        | .ok v => f n v w₁
        | .error halt => .error halt w₁ := by
    show EStateM.bind (x n) (f n) w = _
    rw [EStateM.bind, h n hn]
    cases result <;> rfl
  cases result with
  | error halt => exact ⟨.error halt, w₁, by simpa using hne, hw₁, fuel, hbind⟩
  | ok v =>
    obtain ⟨result', w₂, hne', hw₂, fuel', h'⟩ := hf v w₁ hw₁
    refine ⟨result', w₂, hne', hw₂, max fuel fuel', fun n hn ↦ ?_⟩
    refine (hbind n (Nat.le_trans (Nat.le_max_left _ _) hn)).trans ?_
    exact h' n (Nat.le_trans (Nat.le_max_right _ _) hn)

protected theorem ite {c : Prop} [Decidable c] {y : Nat → Run α} (hx : EndsAt depth x)
    (hy : EndsAt depth y) : EndsAt depth fun n ↦ if c then x n else y n := by
  by_cases h : c
  · simpa only [if_pos h] using hx
  · simpa only [if_neg h] using hy

/-- A run that passes one less on comes to an end if what it passes it on to does. -/
theorem of_succ (h : EndsAt depth fun n ↦ x (n + 1)) : EndsAt depth x := by
  intro w hw
  obtain ⟨result, w', hne, hw', fuel, h⟩ := h w hw
  refine ⟨result, w', hne, hw', fuel + 1, fun n hn ↦ ?_⟩
  obtain ⟨n, rfl⟩ := Nat.exists_eq_add_of_le' (Nat.one_le_of_lt hn)
  exact h n (Nat.le_of_succ_le_succ hn)

end EndsAt

/-! ## The operations of a run -/

namespace Activation

variable {depth : Nat} (a : Activation)

theorem endsAt_fail {α : Type} (fault : Fault) : EndsAt depth fun _ ↦ (a.fail fault : Run α) :=
  .throw nofun

theorem endsAt_lift {α : Type} (result : Except Fault α) : EndsAt depth fun _ ↦ a.lift result := by
  cases result with
  | ok v => exact .pure v
  | error fault => exact a.endsAt_fail fault

theorem endsAt_coerce (type : ValueType) (v : Value) : EndsAt depth fun _ ↦ a.coerce type v := by
  unfold coerce
  split
  · exact .pure _
  · exact a.endsAt_fail _

theorem endsAt_parameterSlots (ps : List BoundParam) (args : List Value) :
    EndsAt depth fun _ ↦ a.parameterSlots ps args := by
  induction ps generalizing args with
  | nil => exact .pure []
  | cons p ps ih =>
    have hrest (v : Value) : EndsAt depth (fun _ ↦ do
        let v ← a.coerce p.type v
        let vs ← a.parameterSlots ps (args.drop 1)
        pure (v :: vs)) :=
      (a.endsAt_coerce _ _).bind fun v ↦ (ih _).bind fun vs ↦ .pure _
    unfold parameterSlots
    cases args with
    | cons arg args => exact hrest arg
    | nil =>
      cases p.default? with
      | some v => exact hrest v
      | none => exact (a.endsAt_fail (α := Value) _).bind hrest

theorem endsAt_slots (args : List Value) : EndsAt depth fun _ ↦ a.slots args :=
  (a.endsAt_parameterSlots _ _).bind fun _ ↦ .pure _

theorem endsAt_load (slots : Slots) (i : Nat) : EndsAt depth fun _ ↦ load slots i := by
  unfold load
  split
  · exact .pure _
  · exact .throw nofun

theorem endsAt_store (slots : Slots) (i : Nat) (v : Value) :
    EndsAt depth fun _ ↦ store slots i v := by
  unfold store
  split
  · exact .pure _
  · exact .throw nofun

theorem endsAt_initial (type : Option ValueType) (v : Value) :
    EndsAt depth fun _ ↦ a.initial type v := by
  cases type with
  | some t => exact a.endsAt_coerce t v
  | none => exact .ite (a.endsAt_fail _) (.pure v)

theorem endsAt_assigned (type : Option ValueType) (v : Value) :
    EndsAt depth fun _ ↦ a.assigned type v := by
  cases type with
  | some t => exact a.endsAt_coerce t v
  | none => exact .pure v

theorem endsAt_truth (v : Value) : EndsAt depth fun _ ↦ a.truth v := by
  cases v with
  | bool b => exact .pure b
  | _ => exact a.endsAt_fail _

theorem endsAt_callLibrary (m : LibraryMethod) (args : List Value) :
    EndsAt depth fun _ ↦ a.callLibrary m args := by
  intro w hw
  cases h : m.run args w.toWriter with
  | none => exact ⟨.error .stuck, w, nofun, hw, 0, fun _ _ ↦ by simp [callLibrary, h, endedWith]⟩
  | some done =>
    obtain ⟨result, w', hne, hw', fuel, hend⟩ :=
      a.endsAt_lift done.1 { w with toWriter := done.2 } hw
    exact ⟨result, w', hne, hw', fuel, by simpa [callLibrary, h] using hend⟩

/-- A declaration, once it has a value. -/
theorem endsAt_declared (slots : Slots) (i : Nat) (type : Option ValueType) (v : Value) :
    EndsAt depth (fun _ ↦ do
      let v ← a.initial type v
      let slots ← store slots i v
      pure (slots, Flow.next)) :=
  (a.endsAt_initial type v).bind fun v ↦ (endsAt_store slots i v).bind fun _ ↦ .pure _

/-- An assignment, once it has the value of its expression. -/
theorem endsAt_updated (slots : Slots) (i : Nat) (type : Option ValueType) (op : Option BinaryOp)
    (v : Value) :
    EndsAt depth (fun _ ↦ do
      let v ← match op with
        | some op => do
          let old ← load slots i
          a.lift (op.apply old v)
        | none => pure v
      let v ← a.assigned type v
      let slots ← store slots i v
      pure (slots, Flow.next)) := by
  have hstore (v : Value) : EndsAt depth (fun _ ↦ do
      let v ← a.assigned type v
      let slots ← store slots i v
      pure (slots, Flow.next)) :=
    (a.endsAt_assigned type v).bind fun v ↦ (endsAt_store slots i v).bind fun _ ↦ .pure _
  cases op with
  | none => exact hstore v
  | some op => exact (endsAt_load slots i).bind fun old ↦ (a.endsAt_lift _).bind hstore

end Activation

/-! ## Code whose calls come to an end -/

/-- Every call that is made where so many are open comes to an end. -/
def BoundProgram.CallsEndAt (p : BoundProgram) (depth : Nat) : Prop :=
  ∀ ci mi self args, EndsAt depth fun n ↦ callMethod n p ci mi self args

section

variable {depth : Nat} {a : Activation}

mutual

theorem endsAt_evaluate (hcalls : a.program.CallsEndAt depth) (slots : Slots) :
    (e : BoundExpr) → EndsAt depth fun n ↦ evaluate n a slots e
  | .const v => .of_succ (.pure v)
  | .slot i => .of_succ (Activation.endsAt_load slots i)
  | .self => .of_succ (.pure a.self)
  | .unary op e => .of_succ ((endsAt_evaluate hcalls slots e).bind fun _ ↦ a.endsAt_lift _)
  | .binary op l r => by
    have hleft := endsAt_evaluate hcalls slots l
    have hright := endsAt_evaluate hcalls slots r
    have htruth {e : BoundExpr} (he : EndsAt depth fun n ↦ evaluate n a slots e) :
        EndsAt depth fun n ↦ evaluateTruth n a slots e :=
      .of_succ (he.bind a.endsAt_truth)
    have hlast : EndsAt depth (fun n ↦ do
        let b ← evaluateTruth n a slots r
        pure (Value.bool b)) :=
      (htruth hright).bind fun b ↦ .pure _
    refine .of_succ ?_
    cases op with
    | and => exact (htruth hleft).bind fun b ↦ .ite hlast (.pure _)
    | or => exact (htruth hleft).bind fun b ↦ .ite (.pure _) hlast
    | _ => exact hleft.bind fun v ↦ hright.bind fun w ↦ a.endsAt_lift _
  | .library m es =>
    .of_succ ((endsAt_evaluateArgs hcalls slots es).bind fun vs ↦ a.endsAt_callLibrary m vs)
  | .call ci mi es =>
    .of_succ ((endsAt_evaluateArgs hcalls slots es).bind fun vs ↦ hcalls ci mi a.self vs)

theorem endsAt_evaluateArgs (hcalls : a.program.CallsEndAt depth) (slots : Slots) :
    (es : List BoundExpr) → EndsAt depth fun n ↦ evaluateArgs n a slots es
  | [] => .of_succ (.pure [])
  | e :: es =>
    have hothers := endsAt_evaluateArgs hcalls slots es
    .of_succ ((endsAt_evaluate hcalls slots e).bind fun _ ↦
      .ite (a.endsAt_fail _) (hothers.bind fun _ ↦ .pure _))

end

theorem endsAt_evaluateTruth (hcalls : a.program.CallsEndAt depth) (slots : Slots)
    (e : BoundExpr) : EndsAt depth fun n ↦ evaluateTruth n a slots e :=
  .of_succ ((endsAt_evaluate hcalls slots e).bind a.endsAt_truth)

mutual

theorem endsAt_execute (hcalls : a.program.CallsEndAt depth) :
    (s : BoundStmt) → (∀ s' ∈ s.nested, s'.isLoop = false) → (slots : Slots) →
      EndsAt depth fun n ↦ execute n a slots s
  | .declare i type (some e), _, slots =>
    .of_succ ((endsAt_evaluate hcalls slots e).bind (a.endsAt_declared slots i type))
  | .declare i (some t) none, _, slots =>
    .of_succ (a.endsAt_declared slots i (some t) t.defaultValue)
  | .declare i none none, _, slots => .of_succ (a.endsAt_declared slots i none .null)
  | .assign i type op e, _, slots =>
    .of_succ ((endsAt_evaluate hcalls slots e).bind (a.endsAt_updated slots i type op))
  | .giveBack none, _, slots => .of_succ (.pure (slots, Flow.result .void))
  | .giveBack (some e), _, slots =>
    .of_succ ((endsAt_evaluate hcalls slots e).bind fun v ↦ .pure (slots, Flow.result v))
  | .branch c body otherwise, h, slots => by
    simp only [BoundStmt.nested, List.forall_mem_cons, List.forall_mem_append] at h
    obtain ⟨-, hbody, hotherwise⟩ := h
    refine .of_succ ((endsAt_evaluateTruth hcalls slots c).bind fun b ↦ ?_)
    cases b with
    | true => exact endsAt_executeAll hcalls body hbody slots
    | false => exact endsAt_executeAll hcalls otherwise hotherwise slots
  | .loop c body, h, _ => nomatch h _ (BoundStmt.mem_nested (.loop c body))
  | .throw e, _, slots =>
    .of_succ ((endsAt_evaluate hcalls slots e).bind fun _ ↦ a.endsAt_fail _)
  | .block body, h, slots =>
    .of_succ (endsAt_executeAll hcalls body (List.forall_mem_cons.1 h).2 slots)
  | .expr e, _, slots =>
    .of_succ ((endsAt_evaluate hcalls slots e).bind fun _ ↦ .pure (slots, Flow.next))

theorem endsAt_executeAll (hcalls : a.program.CallsEndAt depth) :
    (ss : List BoundStmt) → LoopFree ss → (slots : Slots) →
      EndsAt depth fun n ↦ executeAll n a slots ss
  | [], _, slots => .of_succ (.pure (slots, Flow.next))
  | s :: rest, h, slots => by
    have h := List.forall_mem_append.1 h
    refine .of_succ ((endsAt_execute hcalls s h.1 slots).bind fun outcome ↦ ?_)
    obtain ⟨slots', flow⟩ := outcome
    cases flow with
    | next => exact endsAt_executeAll hcalls rest h.2 slots'
    | result v => exact .pure (slots', Flow.result v)

end

theorem endsAt_runMethod (hcalls : a.program.CallsEndAt depth) (hbody : LoopFree a.method.body)
    (args : List Value) : EndsAt depth fun n ↦ runMethod n a args :=
  .of_succ ((a.endsAt_slots args).bind fun slots ↦
    (endsAt_executeAll hcalls a.method.body hbody slots).bind fun _ ↦
      .ite (.pure _) (a.endsAt_coerce _ _))

end

/-! ## Calls -/

/-- Calls come to an end where those of the next depth do, or where they are refused. -/
theorem BoundProgram.CallsEndAt.of_deeper {p : BoundProgram} (hp : p.LoopFree) {depth : Nat}
    (h : depth < maxCallDepth → p.CallsEndAt (depth + 1)) : p.CallsEndAt depth := by
  intro ci mi self args
  refine .of_succ fun w hw ↦ ?_
  subst hw
  cases hm : p.method? ci mi with
  | none => exact ⟨.error .stuck, w, by simp, rfl, 0, fun n _ ↦ by simp [callMethod, hm, endedWith]⟩
  | some m =>
    rcases Nat.lt_or_ge w.depth maxCallDepth with hroom | hfull
    · obtain ⟨result, w', hne, hw', fuel, hend⟩ :=
        endsAt_runMethod (a := calleeOf p m self) (h hroom) (hp.body hm) args
          { w with depth := w.depth + 1 } rfl
      have hclosed : w'.depth - 1 = w.depth := by omega
      refine ⟨result, { w' with depth := w'.depth - 1 }, hne, hclosed, fuel, fun n hn ↦ ?_⟩
      refine (callMethod_of_room hm hroom n self args).trans ?_
      simp only [hend n hn]
      cases result <;> rfl
    · exact ⟨.error (.failure ⟨m.qualifiedName, .stackOverflow⟩), w, by simp, rfl, 0,
        fun n _ ↦ callMethod_of_full hm hfull n self args⟩

/-- **Every call of a program without loops comes to an end**, by induction on how many more may be
opened. -/
theorem endsAt_callMethod {p : BoundProgram} (hp : p.LoopFree) (depth : Nat) :
    p.CallsEndAt depth := by
  obtain ⟨room, hroom⟩ : ∃ room, maxCallDepth ≤ depth + room := ⟨maxCallDepth, by omega⟩
  induction room generalizing depth with
  | zero => exact .of_deeper hp fun hlt ↦ absurd hlt (Nat.not_lt.2 hroom)
  | succ room ih => exact .of_deeper hp fun _ ↦ ih (depth + 1) (by omega)

/-- **Only loops run for ever.**  In an accepted program without loops every call of a method, on
any instance, with any arguments and wherever it is made, comes to an end: from some fuel on it has
the same value or the same failure. -/
theorem terminates_of_loopFree {u : CompileUnit} {refs : List String} {p : BoundProgram}
    (h : bind u refs = .ok p) (hp : p.LoopFree) {ci mi : Nat} {m : BoundMethod}
    (hm : p.method? ci mi = some m) (self : Value) (args : List Value) (w : Machine) :
    ∃ result w' fuel, (∀ n, fuel ≤ n → callMethod n p ci mi self args w = endedWith result w') ∧
      ((∃ v, result = .ok v) ∨ ∃ f, result = .error (.failure f)) := by
  obtain ⟨result, w', hne, -, fuel, hend⟩ := endsAt_callMethod hp w.depth ci mi self args w rfl
  refine ⟨result, w', fuel, hend, ?_⟩
  cases result with
  | ok v => exact .inl ⟨v, rfl⟩
  | error halt =>
    cases halt with
    | failure f => exact .inr ⟨f, rfl⟩
    | outOfFuel => exact absurd rfl hne
    | stuck =>
      have hsound := (sound (wellFormed_of_bind h) fuel).callMethod self args hm
      exact absurd (hend fuel (Nat.le_refl fuel)) (hsound.ne_stuck w w')

/-- A method that calls itself twice, without a loop: its calls are as many as the leaves of a
tree. -/
def forkUnit : CompileUnit :=
  ⟨[⟨"Shop", [], [⟨"Fork", .everyone, false,
    [⟨"Split", .everyone, true, "int", [⟨"int", "n", none⟩],
      "if (n <= 0) { return 1; } return Split(n - 1) + Split(n - 1);"⟩]⟩]⟩]⟩

/-- The calls come to an end at the depth of a hundred, though there are more of them than can ever
be made. -/
theorem forkUnit_terminates : ∃ result w' fuel,
    (∀ n, fuel ≤ n →
      callMethod n (bindAll forkUnit []).value 0 0 .null [.int 100] .fresh =
        endedWith result w') ∧
      ((∃ v, result = .ok v) ∨ ∃ f, result = .error (.failure f)) := by
  have hbind : bind forkUnit [] = .ok (bindAll forkUnit []).value :=
    bind_of_clean (by decide +kernel)
  have hm : ((bindAll forkUnit []).value.method? 0 0).isSome = true := by decide +kernel
  obtain ⟨m, hm⟩ := Option.isSome_iff_exists.1 hm
  have hp : (bindAll forkUnit []).value.LoopFree := by
    unfold BoundProgram.LoopFree LoopFree
    decide +kernel
  exact terminates_of_loopFree hbind hp hm .null [.int 100] .fresh

end Dossier.Script
