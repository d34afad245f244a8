import Dossier.Proofs.Run.Ends

/-!
# Runs only add to the output

No run looks at what has been written before it, and no run takes anything of it back.

* `Appends x` says this of a run `x`: from a machine on which so many calls are open, and whose writer
  has such answers for it, it ends in the same way whatever has been written before, and has then
  written a text of its own behind it.  This holds of every end: what has been written stays when a run
  fails, be it for the writer.
* It also says that as many calls are open at the end as were at the start, which is why the start of
  the next run does not show how the one before it ended.
* What a run does leave behind is that the writer has given the answers that it was asked for.
* `appending` is the result for all functions of the interpreter; it asks nothing of the program.
-/

set_option autoImplicit false

namespace Dossier.Script

/-- The end of a run with a result or a halt. -/
def endedWith {α : Type} : Except Halt α → Machine → EStateM.Result Halt Machine α
  | .ok v, w => .ok v w
  | .error halt, w => .error halt w

/-- The run ends in the same way whatever has been written before it, and adds a text to that; the
writer keeps the answers that it was not asked for, and all calls that the run opens are closed
again. -/
def Appends {α : Type} (x : Run α) : Prop :=
  ∀ replies depth, ∃ result text rest, rest <:+ replies ∧ ∀ before,
    x ⟨⟨before, replies⟩, depth⟩ = endedWith result ⟨⟨before ++ text, rest⟩, depth⟩

namespace Appends

variable {α β : Type} {x : Run α}

protected theorem pure (v : α) : Appends (pure v : Run α) :=
  fun replies _ ↦ ⟨.ok v, "", replies, List.suffix_rfl, fun _ ↦ by rw [String.append_empty]; rfl⟩

protected theorem throw (halt : Halt) : Appends (throw halt : Run α) :=
  fun replies _ ↦ ⟨.error halt, "", replies, List.suffix_rfl, fun _ ↦ by rw [String.append_empty]; rfl⟩

/-- **A step and what follows it** add their texts one after the other. -/
protected theorem bind {f : α → Run β} (hx : Appends x) (hf : ∀ v, Appends (f v)) :
    Appends (x >>= f) := by
  intro replies depth
  obtain ⟨result, text, rest, hrest, h⟩ := hx replies depth
  cases result with
  | error halt =>
    refine ⟨.error halt, text, rest, hrest, fun before ↦ ?_⟩
    show EStateM.bind x f _ = _
    rw [EStateM.bind, h]
    rfl
  | ok v =>
    obtain ⟨result, more, rest', hrest', hmore⟩ := hf v rest depth
    refine ⟨result, text ++ more, rest', hrest'.trans hrest, fun before ↦ ?_⟩
    show EStateM.bind x f _ = _
    rw [EStateM.bind, h, ← String.append_assoc]
    exact hmore _

protected theorem ite {c : Prop} [Decidable c] {y : Run α} (hx : Appends x) (hy : Appends y) :
    Appends (if c then x else y) := by
  split
  · exact hx
  · exact hy

/-- After a statement or a body, if it does not end the method. -/
theorem onNext {rest : Slots → Run (Slots × Flow)} (h : ∀ slots, Appends (rest slots))
    (outcome : Slots × Flow) :
    Appends (match outcome with
      | (slots, flow) => match flow with
        | .next => rest slots
        | .result v => pure (slots, .result v)) := by
  obtain ⟨slots, flow⟩ := outcome
  cases flow with
  | next => exact h slots
  | result v => exact .pure _

end Appends

/-! ## The operations of a run -/

/-- What a writer answers, and how much of the text it keeps, does not depend on what has been
written. -/
theorem Writer.put_appends (text : String) (replies : List Reply) :
    ∃ answer kept rest, rest <:+ replies ∧ ∀ before,
      Writer.put ⟨before, replies⟩ text = (answer, ⟨before ++ kept, rest⟩) := by
  match replies with
  | [] => exact ⟨_, text, [], List.suffix_rfl, fun _ ↦ rfl⟩
  | .takes :: rest => exact ⟨_, text, rest, List.suffix_cons _ rest, fun _ ↦ rfl⟩
  | .fails kept _ :: rest => exact ⟨_, kept, rest, List.suffix_cons _ rest, fun _ ↦ rfl⟩

theorem LibraryMethod.carryOut_appends (m : LibraryMethod) (effect : Effect)
    (replies : List Reply) :
    ∃ found kept rest, rest <:+ replies ∧ ∀ before,
      m.carryOut effect ⟨before, replies⟩ = (found, ⟨before ++ kept, rest⟩) := by
  unfold carryOut
  split
  · obtain ⟨answer, kept, rest, hrest, hput⟩ := Writer.put_appends effect.output replies
    cases answer with
    | ok _ => exact ⟨effect.result, kept, rest, hrest, fun before ↦ by rw [hput]⟩
    | error message =>
      exact ⟨.error (.notWritten message), kept, rest, hrest, fun before ↦ by rw [hput]⟩
  · refine ⟨effect.result, "", replies, List.suffix_rfl, fun before ↦ ?_⟩
    rw [String.append_empty]

namespace Activation

variable (a : Activation)

theorem appends_fail {α : Type} (fault : Fault) : Appends (a.fail fault : Run α) := .throw _

theorem appends_lift {α : Type} (result : Except Fault α) : Appends (a.lift result) := by
  cases result with
  | ok v => exact .pure v
  | error fault => exact a.appends_fail fault

theorem appends_coerce (type : ValueType) (v : Value) : Appends (a.coerce type v) := by
  rw [coerce]
  split
  · exact .pure _
  · exact a.appends_fail _

theorem appends_parameterSlots (ps : List BoundParam) (args : List Value) :
    Appends (a.parameterSlots ps args) := by
  induction ps generalizing args with
  | nil => exact .pure []
  | cons p ps ih =>
    have hrest (v : Value) : Appends (do
        let v ← a.coerce p.type v
        let vs ← a.parameterSlots ps (args.drop 1)
        pure (v :: vs)) :=
      (a.appends_coerce _ _).bind fun v ↦ (ih _).bind fun vs ↦ .pure _
    unfold parameterSlots
    cases args with
    | cons arg args => exact hrest arg
    | nil =>
      cases p.default? with
      | some v => exact hrest v
      | none => exact (a.appends_fail (α := Value) _).bind hrest

theorem appends_slots (args : List Value) : Appends (a.slots args) :=
  (a.appends_parameterSlots _ _).bind fun _ ↦ .pure _

theorem appends_load (slots : Slots) (i : Nat) : Appends (load slots i) := by
  rw [load]
  split
  · exact .pure _
  · exact .throw _

theorem appends_store (slots : Slots) (i : Nat) (v : Value) : Appends (store slots i v) := by
  rw [store]
  split
  · exact .pure _
  · exact .throw _

theorem appends_initial (type : Option ValueType) (v : Value) : Appends (a.initial type v) := by
  cases type with
  | some t => exact a.appends_coerce t v
  | none =>
    rw [initial]
    split
    · exact a.appends_fail _
    · exact .pure v

theorem appends_assigned (type : Option ValueType) (v : Value) : Appends (a.assigned type v) := by
  cases type with
  | some t => exact a.appends_coerce t v
  | none => exact .pure v

theorem appends_truth (v : Value) : Appends (a.truth v) := by
  cases v <;> first | exact .pure _ | exact a.appends_fail _

/-- A declaration, once it has a value. -/
theorem appends_declared (slots : Slots) (i : Nat) (type : Option ValueType) (v : Value) :
    Appends (do
      let v ← a.initial type v
      let slots ← store slots i v
      pure (slots, Flow.next)) :=
  (a.appends_initial type v).bind fun v ↦ (appends_store slots i v).bind fun _ ↦ .pure _

/-- An assignment, once it has the value of its expression. -/
theorem appends_updated (slots : Slots) (i : Nat) (type : Option ValueType) (op : Option BinaryOp)
    (v : Value) :
    Appends (do
      let v ← match op with
        | some op => do
          let old ← load slots i
          a.lift (op.apply old v)
        | none => pure v
      let v ← a.assigned type v
      let slots ← store slots i v
      pure (slots, Flow.next)) := by
  have hstore (v : Value) : Appends (do
      let v ← a.assigned type v
      let slots ← store slots i v
      pure (slots, Flow.next)) :=
    (a.appends_assigned type v).bind fun v ↦ (appends_store slots i v).bind fun slots ↦ .pure _
  cases op with
  | none => exact hstore v
  | some op => exact (appends_load slots i).bind fun old ↦ (a.appends_lift _).bind hstore

/-- The value of a method whose body has ended. -/
theorem appends_returned (outcome : Slots × Flow) :
    Appends (match outcome with
      | (_, flow) =>
        let v := match flow with
          | .result v => v
          | .next => .void
        if a.method.returns = .void then pure .void else a.coerce a.method.returns v) :=
  .ite (.pure _) (a.appends_coerce _ _)

/-- The library writes behind what is there, as much of a text as the writer keeps. -/
theorem appends_callLibrary (m : LibraryMethod) (args : List Value) :
    Appends (a.callLibrary m args) := by
  intro replies depth
  cases heffect : m.apply args with
  | none =>
    exact ⟨.error .stuck, "", replies, List.suffix_rfl, fun before ↦ by
      simp [callLibrary, LibraryMethod.run, heffect, endedWith]⟩
  | some effect =>
    obtain ⟨found, kept, rest, hrest, hrun⟩ := m.carryOut_appends effect replies
    obtain ⟨result, text, rest', hrest', h⟩ := a.appends_lift found rest depth
    refine ⟨result, kept ++ text, rest', hrest'.trans hrest, fun before ↦ ?_⟩
    simp only [callLibrary, LibraryMethod.run, heffect, Option.map_some, hrun]
    rw [h, String.append_assoc]

end Activation

/-! ## The interpreter -/

/-- What is proved of the interpreter at a fuel. -/
structure Appending (fuel : Nat) : Prop where
  evaluate : ∀ a slots e, Appends (Script.evaluate fuel a slots e)
  evaluateTruth : ∀ a slots e, Appends (Script.evaluateTruth fuel a slots e)
  evaluateArgs : ∀ a slots es, Appends (Script.evaluateArgs fuel a slots es)
  callMethod : ∀ p ci mi self args, Appends (Script.callMethod fuel p ci mi self args)
  runMethod : ∀ a args, Appends (Script.runMethod fuel a args)
  execute : ∀ a slots s, Appends (Script.execute fuel a slots s)
  executeAll : ∀ a slots ss, Appends (Script.executeAll fuel a slots ss)
  executeLoop : ∀ a slots c body, Appends (Script.executeLoop fuel a slots c body)

namespace Appending

variable {fuel : Nat} (ih : Appending fuel) (a : Activation) (slots : Slots)

theorem zero : Appending 0 where
  evaluate _ _ _ := .throw _
  evaluateTruth _ _ _ := .throw _
  evaluateArgs _ _ _ := .throw _
  callMethod _ _ _ _ _ := .throw _
  runMethod _ _ := .throw _
  execute _ _ _ := .throw _
  executeAll _ _ _ := .throw _
  executeLoop _ _ _ _ := .throw _

include ih

/-- The right operand of a logical operator. -/
theorem evaluateRight (r : BoundExpr) :
    Appends (do
      let b ← Script.evaluateTruth fuel a slots r
      pure (Value.bool b)) :=
  (ih.evaluateTruth a slots r).bind fun _ ↦ .pure _

theorem evaluate_succ (e : BoundExpr) : Appends (Script.evaluate (fuel + 1) a slots e) := by
  cases e with
  | const v => exact .pure v
  | slot i => exact Activation.appends_load slots i
  | self => exact .pure a.self
  | unary op e => exact (ih.evaluate a slots e).bind fun v ↦ a.appends_lift _
  | binary op l r =>
    have hleft := ih.evaluateTruth a slots l
    have hright := ih.evaluateRight a slots r
    cases op with
    | and => exact hleft.bind fun _ ↦ .ite hright (.pure _)
    | or => exact hleft.bind fun _ ↦ .ite (.pure _) hright
    | _ =>
      exact (ih.evaluate a slots l).bind fun v ↦ (ih.evaluate a slots r).bind fun w ↦
        a.appends_lift _
  | library m es => exact (ih.evaluateArgs a slots es).bind fun vs ↦ a.appends_callLibrary m vs
  | call ci mi es =>
    exact (ih.evaluateArgs a slots es).bind fun vs ↦ ih.callMethod a.program ci mi a.self vs

theorem evaluateTruth_succ (e : BoundExpr) :
    Appends (Script.evaluateTruth (fuel + 1) a slots e) :=
  (ih.evaluate a slots e).bind a.appends_truth

/-- The arguments after one with a value. -/
theorem evaluateOthers (v : Value) (es : List BoundExpr) :
    Appends (if v.isVoid then a.fail .voidArgument
      else do
        let vs ← Script.evaluateArgs fuel a slots es
        pure (v :: vs)) :=
  .ite (a.appends_fail _) ((ih.evaluateArgs a slots es).bind fun _ ↦ .pure _)

theorem evaluateArgs_succ (es : List BoundExpr) :
    Appends (Script.evaluateArgs (fuel + 1) a slots es) := by
  cases es with
  | nil => exact .pure []
  | cons e es => exact (ih.evaluate a slots e).bind fun v ↦ ih.evaluateOthers a slots v es

/-- A call that is refused writes nothing; any other one is closed at its end, however it ends. -/
theorem callMethod_succ (p : BoundProgram) (ci mi : Nat) (self : Value) (args : List Value) :
    Appends (Script.callMethod (fuel + 1) p ci mi self args) := by
  intro replies depth
  cases hm : p.method? ci mi with
  | none =>
    refine ⟨.error .stuck, "", replies, List.suffix_rfl, fun before ↦ ?_⟩
    simp [Script.callMethod, hm, endedWith]
  | some m =>
    rcases Nat.lt_or_ge depth maxCallDepth with hroom | hfull
    · obtain ⟨result, text, rest, hrest, h⟩ :=
        ih.runMethod (calleeOf p m self) args replies (depth + 1)
      refine ⟨result, text, rest, hrest, fun before ↦ ?_⟩
      rw [callMethod_of_room hm hroom]
      simp only [h]
      cases result <;> rfl
    · refine ⟨.error (.failure ⟨m.qualifiedName, .stackOverflow⟩), "", replies, List.suffix_rfl,
        fun before ↦ ?_⟩
      rw [callMethod_of_full hm hfull, String.append_empty]
      rfl

theorem runMethod_succ (args : List Value) : Appends (Script.runMethod (fuel + 1) a args) :=
  (a.appends_slots args).bind fun slots ↦
    (ih.executeAll a slots a.method.body).bind a.appends_returned

theorem execute_succ (s : BoundStmt) : Appends (Script.execute (fuel + 1) a slots s) := by
  cases s with
  | declare i type init =>
    have hstore := a.appends_declared slots i type
    cases init with
    | some e => exact (ih.evaluate a slots e).bind hstore
    | none =>
      cases type with
      | some t => exact hstore t.defaultValue
      | none => exact hstore .null
  | assign i type op e => exact (ih.evaluate a slots e).bind (a.appends_updated slots i type op)
  | giveBack value =>
    cases value with
    | none => exact .pure _
    | some e => exact (ih.evaluate a slots e).bind fun v ↦ .pure _
  | branch c body otherwise =>
    exact (ih.evaluateTruth a slots c).bind fun b ↦ ih.executeAll a slots _
  | loop c body => exact ih.executeLoop a slots c body
  | throw e => exact (ih.evaluate a slots e).bind fun v ↦ a.appends_fail _
  | block body => exact ih.executeAll a slots body
  | expr e => exact (ih.evaluate a slots e).bind fun v ↦ .pure _

theorem executeAll_succ (ss : List BoundStmt) :
    Appends (Script.executeAll (fuel + 1) a slots ss) := by
  cases ss with
  | nil => exact .pure _
  | cons s ss =>
    exact (ih.execute a slots s).bind (.onNext fun slots' ↦ ih.executeAll a slots' ss)

/-- The rounds of a loop after one that has run the body. -/
theorem executeRound (c : BoundExpr) (body : List BoundStmt) :
    Appends (do
      let (slots, flow) ← Script.executeAll fuel a slots body
      match flow with
      | .next => Script.executeLoop fuel a slots c body
      | .result v => pure (slots, .result v)) :=
  (ih.executeAll a slots body).bind (.onNext fun slots' ↦ ih.executeLoop a slots' c body)

theorem executeLoop_succ (c : BoundExpr) (body : List BoundStmt) :
    Appends (Script.executeLoop (fuel + 1) a slots c body) :=
  (ih.evaluateTruth a slots c).bind fun _ ↦ .ite (ih.executeRound a slots c body) (.pure _)

end Appending

/-- **No run looks at the output, or takes anything of it back.** -/
theorem appending (fuel : Nat) : Appending fuel := by
  induction fuel with
  | zero => exact .zero
  | succ fuel ih =>
    exact {
      evaluate := ih.evaluate_succ
      evaluateTruth := ih.evaluateTruth_succ
      evaluateArgs := ih.evaluateArgs_succ
      callMethod := ih.callMethod_succ
      runMethod := ih.runMethod_succ
      execute := ih.execute_succ
      executeAll := ih.executeAll_succ
      executeLoop := ih.executeLoop_succ }

end Dossier.Script
