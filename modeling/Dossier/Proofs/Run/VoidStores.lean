import Dossier.Proofs.Binding.Updates
import Dossier.Proofs.Run.Stores

/-!
# Void values in frames

The result of a void method gets into a frame in one way only.

* `Point.Fails` says that a statement at a point ends the run, and `voidFault` for which fault it does
  so if its value is void: a declaration, a plain assignment to a local with a type, and, with a fault
  of its own, an assignment with an operator.  `Point.ChecksVoid` puts them together, with arguments.
* A plain assignment to a local without a type stores the value and goes on.
* `void_stored_iff` is the result: a void value is in a frame at some point of a run exactly if there
  is such an assignment.  `widgetUnit_goes_on` shows a run that comes by one.
-/

set_option autoImplicit false

namespace Dossier.Script

/-! ## What refuses a void value -/

/-- The fault of a void value that is sent to a local. -/
def voidFault : Option ValueType → Fault
  | none => .voidLocal
  | some .object => .coercion .voidResult
  | some t => .coercion (.mismatch "void" t)

theorem ValueType.coerce_void {t : ValueType} (h : t ≠ .void) :
    ∃ error, t.coerce .void = .error error ∧ voidFault (some t) = .coercion error := by
  cases t with
  | void => exact absurd rfl h
  | _ => exact ⟨_, rfl, rfl⟩

/-- **No operator of an assignment takes a void value.** -/
theorem refuses_void_of_isUpdate {op : BinaryOp} (h : IsUpdate (some op)) (old : Value) :
    op.apply old .void = .error (.operands op old.typeName "void") := by
  obtain ⟨assign, hop⟩ := h
  cases assign <;> cases hop <;> cases old <;> rfl

/-! ## The statements that store -/

variable {p : BoundProgram} {ci mi : Nat} {self : Value} {args : List Value} {w w' : Machine}
  {pt : Point}

namespace Point

variable {i : Nat} {type : Option ValueType} {e : BoundExpr}

/-- The statement at the point fails for a fault of its method. -/
def Fails (pt : Point) (s : BoundStmt) (fault : Fault) (w : Machine) : Prop :=
  ∃ fuel, execute fuel pt.activation pt.slots s pt.machine =
    .error (.failure ⟨pt.activation.method.qualifiedName, fault⟩) w

/-- **A declaration with a void value fails**, with a type or without. -/
theorem Good.fails_declare (h : pt.Good p) (hc : pt.code = .stmt (.declare i type (some e)))
    (he : pt.Gives e .void w) : pt.Fails (.declare i type (some e)) (voidFault type) w := by
  obtain ⟨fuel, he⟩ := he
  refine ⟨fuel + 1, (bind_of_ok he).trans ?_⟩
  cases type with
  | none => rfl
  | some t =>
    cases h.wellFormed hc with
    | declare _ _ htype _ =>
      obtain ⟨error, hcoerce, hfault⟩ := ValueType.coerce_void fun hvoid ↦ htype (congrArg _ hvoid)
      simp only [Activation.initial, Activation.coerce, hcoerce, hfault]
      rfl

/-- **So does a plain assignment** to a local with a type. -/
theorem Good.fails_assign (hp : p.WellFormed) (h : pt.Good p) {t : ValueType}
    (hc : pt.code = .stmt (.assign i (some t) none e)) (he : pt.Gives e .void w) :
    pt.Fails (.assign i (some t) none e) (voidFault (some t)) w := by
  obtain ⟨fuel, he⟩ := he
  refine ⟨fuel + 1, (bind_of_ok he).trans ?_⟩
  have htype : t ≠ .void := by
    obtain ⟨ci, mi, hm⟩ := h.method
    generalize hlocal : some t = type at hc
    cases h.wellFormed hc with
    | assign hl _ _ =>
      rintro rfl
      exact (hp ci mi _ hm).type_ne_void (h.known _ hl) hlocal.symm
  obtain ⟨error, hcoerce, hfault⟩ := ValueType.coerce_void htype
  simp only [pure_bind, Activation.assigned, Activation.coerce, hcoerce, hfault]
  rfl

/-- **So does an assignment with an operator**, whatever its local is. -/
theorem Good.fails_update (h : pt.Good p) {op : BinaryOp} (hop : IsUpdate (some op))
    (hc : pt.code = .stmt (.assign i type (some op) e)) (he : pt.Gives e .void w) :
    ∃ old, pt.slots[i]? = some old ∧
      pt.Fails (.assign i type (some op) e) (.operands op old.typeName "void") w := by
  obtain ⟨fuel, he⟩ := he
  have hold : ∃ old, pt.slots[i]? = some old := by
    cases h.wellFormed hc with
    | assign hl _ _ =>
      obtain ⟨old, hold, -⟩ := h.frame.holds _ hl
      exact ⟨old, hold⟩
  obtain ⟨old, hold⟩ := hold
  refine ⟨old, hold, fuel + 1, (bind_of_ok he).trans ?_⟩
  simp only [Activation.load, hold, pure_bind, refuses_void_of_isUpdate hop]
  rfl

/-- **A plain assignment to a local without a type** stores a void value, and goes on. -/
theorem Good.stores_assign (h : pt.Good p) (hc : pt.code = .stmt (.assign i none none e))
    (he : pt.Gives e .void w) :
    i < pt.slots.size ∧ ∃ fuel, execute fuel pt.activation pt.slots (.assign i none none e)
      pt.machine = .ok (pt.slots.setIfInBounds i .void, .next) w := by
  have hlt : i < pt.slots.size := by
    rw [h.frame.size_eq]
    generalize hlocal : none = type at hc
    cases h.wellFormed hc with
    | assign _ hlt _ => exact hlt
  obtain ⟨fuel, he⟩ := he
  refine ⟨hlt, fuel + 1, (bind_of_ok he).trans ?_⟩
  simp only [Activation.assigned, Activation.store, pure_bind, if_pos hlt]
  rfl

end Point

/-- A statement that is no loop is come by as the first one of some statements. -/
theorem Reaches.stmts_of_stmt (h : Reaches p ci mi self args w pt) {s : BoundStmt}
    (hc : pt.code = .stmt s) (hs : ∀ c body, s ≠ .loop c body) :
    ∃ ss, Reaches p ci mi self args w (pt.go (.stmts (s :: ss)) pt.machine) := by
  cases h with
  | start _ hstart =>
    obtain ⟨-, _, _, -, rfl⟩ := hstart
    cases hc
  | @step pt₀ _ hr hstep =>
    cases hstep with
    | call _ _ _ hstart =>
      obtain ⟨-, _, _, -, rfl⟩ := hstart
      cases hc
    | loopAgain hloop =>
      rw [hloop] at hc
      cases hc
      exact absurd rfl (hs _ _)
    | @firstStmt s' ss hstmts =>
      cases hc
      refine ⟨ss, ?_⟩
      rw [← hstmts]
      exact hr
    | _ => cases hc

/-- What the assignments of code carry, at every depth. -/
def Code.updates : Code → List (Option BinaryOp)
  | .stmt s => s.updates
  | .stmts ss => updatesIn ss
  | _ => []

/-- **The assignments that a run comes by** carry the operators of the language. -/
theorem Reaches.updates {u : CompileUnit} {refs : List String} (hb : bind u refs = .ok p)
    (h : Reaches p ci mi self args w pt) : ∀ op ∈ pt.code.updates, IsUpdate op := by
  induction h with
  | start hm hstart =>
    obtain ⟨-, _, _, -, rfl⟩ := hstart
    exact updates_of_bind hb hm
  | @step pt pt' hr hs ih =>
    cases hs with
    | call _ _ hm hstart =>
      obtain ⟨-, _, _, -, rfl⟩ := hstart
      rw [hr.program] at hm
      exact updates_of_bind hb hm
    | loopAgain => exact ih
    | _ hc => simp_all [Point.go, Code.updates, BoundStmt.updates, updatesIn]

/-! ## The result -/

/-- The checks that keep a void value out of frames: of an argument, of a declaration, of a plain
assignment to a local with a type, and of an assignment with an operator.  Each of them ends the run
with a failure of the method that runs. -/
structure Point.ChecksVoid (pt : Point) : Prop where
  argument : ∀ e es w, pt.code = .args (e :: es) → pt.Gives e .void w →
    ∃ fuel, evaluateArgs fuel pt.activation pt.slots (e :: es) pt.machine =
      .error (.failure ⟨pt.activation.method.qualifiedName, .voidArgument⟩) w
  declare : ∀ i type e w, pt.code = .stmt (.declare i type (some e)) → pt.Gives e .void w →
    pt.Fails (.declare i type (some e)) (voidFault type) w
  assign : ∀ i t e w, pt.code = .stmt (.assign i (some t) none e) → pt.Gives e .void w →
    pt.Fails (.assign i (some t) none e) (voidFault (some t)) w
  update : ∀ i type op e w, pt.code = .stmt (.assign i type (some op) e) → pt.Gives e .void w →
    ∃ old, pt.slots[i]? = some old ∧
      pt.Fails (.assign i type (some op) e) (.operands op old.typeName "void") w

theorem Reaches.checksVoid {u : CompileUnit} {refs : List String} (hb : bind u refs = .ok p)
    (h : Reaches p ci mi self args w pt) : pt.ChecksVoid where
  argument e es w hc he := by
    obtain ⟨fuel, he⟩ := he
    exact ⟨fuel + 1, bind_of_ok he⟩
  declare i type e w hc he := (good_of_reaches (wellFormed_of_bind hb) h).fails_declare hc he
  assign i t e w hc he :=
    (good_of_reaches (wellFormed_of_bind hb) h).fails_assign (wellFormed_of_bind hb) hc he
  update i type op e w hc he := by
    refine (good_of_reaches (wellFormed_of_bind hb) h).fails_update (h.updates hb _ ?_) hc he
    simp [hc, Code.updates, BoundStmt.updates]

/-- **A plain assignment to a local without a type is the only way for a void value into a frame.**
In a run of an accepted program, a frame that the run comes by holds one exactly if the run comes by
such an assignment with a void value, which stores it and goes on.  Wherever else one is sent to a
parameter or a local, the run fails. -/
theorem void_stored_iff {u : CompileUnit} {refs : List String} (h : bind u refs = .ok p)
    (ci mi : Nat) (self : Value) (args : List Value) (w : Machine) :
    ((∃ pt, Reaches p ci mi self args w pt ∧ .void ∈ pt.slots) ↔
      ∃ pt, Reaches p ci mi self args w pt ∧ pt.StoresVoid) ∧
    (∀ pt i e w', Reaches p ci mi self args w pt → pt.code = .stmt (.assign i none none e) →
      pt.Gives e .void w' → i < pt.slots.size ∧
        ∃ fuel, execute fuel pt.activation pt.slots (.assign i none none e) pt.machine =
          .ok (pt.slots.setIfInBounds i .void, .next) w') ∧
    ∀ pt, Reaches p ci mi self args w pt → pt.ChecksVoid := by
  have hp := wellFormed_of_bind h
  refine ⟨⟨?_, ?_⟩, fun pt i e w' hr hc he ↦ (good_of_reaches hp hr).stores_assign hc he,
    fun pt hr ↦ hr.checksVoid h⟩
  · rintro ⟨pt, hr, hmem⟩
    by_contra hnone
    have hvoidless : Voidless p (Reaches p ci mi self args w) := {
      step := .step
      good := good_of_reaches hp
      clean := fun hr hstores ↦ hnone ⟨_, hr, hstores⟩ }
    exact hvoidless.notMem hp hr hmem
  · rintro ⟨pt, hr, i, e, w', hc, he⟩
    obtain ⟨hlt, fuel, hexec⟩ := (good_of_reaches hp hr).stores_assign hc he
    obtain ⟨ss, hr⟩ := hr.stmts_of_stmt hc (by simp)
    refine ⟨_, hr.step (.otherStmts rfl hexec), ?_⟩
    exact Array.mem_of_getElem? (Array.getElem?_setIfInBounds_self_of_lt hlt)

/-! ## A void value in a frame -/

/-- The frame and the machine after statements, if none of them ends the method. -/
def after? (fuel : Nat) (a : Activation) :
    List BoundStmt → Slots → Machine → Option (Slots × Machine)
  | [], slots, w => some (slots, w)
  | s :: ss, slots, w =>
    match execute fuel a slots s w with
    | .ok (slots, .next) w => after? fuel a ss slots w
    | _ => none

theorem Reaches.after {fuel : Nat} {front rest : List BoundStmt} {slots : Slots}
    (h : Reaches p ci mi self args w pt) (hc : pt.code = .stmts (front ++ rest))
    (hafter : after? fuel pt.activation front pt.slots pt.machine = some (slots, w')) :
    ∃ known, Reaches p ci mi self args w ⟨pt.activation, slots, known, .stmts rest, w'⟩ := by
  induction front generalizing pt with
  | nil =>
    cases hafter
    refine ⟨pt.known, ?_⟩
    rw [List.nil_append] at hc
    rw [← hc]
    exact h
  | cons s front ih =>
    rw [after?] at hafter
    split at hafter
    · rename_i hexec
      obtain ⟨known, hr⟩ := ih (h.step (.otherStmts hc hexec)) rfl hafter
      exact ⟨known, hr⟩
    · cases hafter

/-- Is a void value in the frame of a static method without parameters, after the first statements
of its body? -/
def BoundProgram.voidAfter (p : BoundProgram) (ci mi count : Nat) : Bool :=
  match p.method? ci mi with
  | none => false
  | some m =>
    match (calleeOf p m .null).slots [] ⟨"", 1⟩ with
    | .error _ _ => false
    | .ok slots w =>
      match after? 20 (calleeOf p m .null) (m.body.take count) slots w with
      | none => false
      | some (slots, _) => slots.any Value.isVoid

theorem exists_void_of_voidAfter {count : Nat} (h : p.voidAfter ci mi count = true) :
    ∃ pt, Reaches p ci mi .null [] .fresh pt ∧ .void ∈ pt.slots := by
  rw [BoundProgram.voidAfter] at h
  split at h
  · cases h
  · rename_i m hm
    split at h
    · cases h
    · rename_i slots w hslots
      split at h
      · cases h
      · rename_i slots' w' hafter
        have hstart : Starts (calleeOf p m .null) [] .fresh _ := ⟨by decide, slots, w, hslots, rfl⟩
        obtain ⟨known, hr⟩ := (Reaches.start hm hstart).after
          (congrArg Code.stmts (List.take_append_drop count m.body).symm) hafter
        obtain ⟨v, hv, hvoid⟩ := Array.any_eq_true'.1 h
        obtain rfl := v.isVoid_iff.1 hvoid
        exact ⟨_, hr, hv⟩

/-- A class in which the result of a method without one is assigned to a local without a type. -/
def widgetUnit : CompileUnit :=
  ⟨[⟨"Acme", [], [⟨"Widget", .everyone, false,
    [⟨"Nothing", .everyone, true, "void", [], ""⟩,
      ⟨"Main", .everyone, true, "int", [], "var x = 1; x = Nothing(); return 5;"⟩]⟩]⟩]⟩

theorem bind_widgetUnit : bind widgetUnit [] = .ok (bindAll widgetUnit []).value :=
  bind_of_clean (by decide +kernel)

theorem widgetUnit_void : ∃ pt,
    Reaches (bindAll widgetUnit []).value 0 1 .null [] .fresh pt ∧ .void ∈ pt.slots := by
  have hvoid : (bindAll widgetUnit []).value.voidAfter 0 1 2 = true := by decide +kernel
  exact exists_void_of_voidAfter hvoid

/-- **The widget keeps a void value in a frame**, and its method returns as if nothing were wrong. -/
theorem widgetUnit_goes_on : ∃ p, bind widgetUnit [] = .ok p ∧
    (∃ pt, Reaches p 0 1 .null [] .fresh pt ∧ .void ∈ pt.slots) ∧
    ∃ w, callMethod ampleFuel p 0 1 .null [] .fresh = .ok (.int 5) w := by
  refine ⟨_, bind_widgetUnit, widgetUnit_void, ?_⟩
  exact exists_of_givesInt (by decide +kernel)

/-- The assignment of the widget is come by. -/
theorem widgetUnit_stores : ∃ pt,
    Reaches (bindAll widgetUnit []).value 0 1 .null [] .fresh pt ∧ pt.StoresVoid :=
  (void_stored_iff bind_widgetUnit 0 1 .null [] .fresh).1.1 widgetUnit_void

end Dossier.Script
