import Dossier.Proofs.Binding.Defaults
import Dossier.Proofs.Binding.WellFormed
import Dossier.Proofs.Run.Ends

/-!
# Frames

What the slots of a frame hold while a well-formed method runs.

* `ValueType.Holds` says which values are of a type; every way into a typed place gives one of them.
* `Frame` is the invariant: each local in scope has a slot of its own, and a value of its type in
  it.  A declaration adds a local (`Frame.declare`), an assignment keeps all of them
  (`Frame.assign`).
* `frame_startSlots` is the start: parameters have been filled from arguments and defaults.
-/

set_option autoImplicit false

namespace Dossier.Script

/-! ## Values of a type -/

theorem Value.isVoid_iff (v : Value) : v.isVoid = true ↔ v = .void := by
  cases v <;> simp [isVoid]

/-- The values of a type. -/
def ValueType.Holds : ValueType → Value → Prop
  | .void, v => v = .void
  | .int, v => ∃ n, v = .int n
  | .float, v => ∃ x, v = .float x
  | .bool, v => ∃ b, v = .bool b
  | .string, v => v = .null ∨ ∃ s, v = .string s
  | .object, v => v ≠ .void

namespace ValueType

theorem holds_of_coerce : {t : ValueType} → {v v' : Value} → t.coerce v = .ok v' → t.Holds v'
  | .void, .void, _, rfl => rfl
  | .int, .int n, _, rfl => ⟨n, rfl⟩
  | .float, .float x, _, rfl => ⟨x, rfl⟩
  | .float, .int n, _, rfl => ⟨Number.floatOfInt n, rfl⟩
  | .bool, .bool b, _, rfl => ⟨b, rfl⟩
  | .string, .string s, _, rfl => .inr ⟨s, rfl⟩
  | .string, .null, _, rfl => .inl rfl
  | .object, v, v', h => by
    cases v with
    | void => exact absurd h (by simp [coerce])
    | _ =>
      cases h
      simp [Holds]

/-- **A value of the type stays as it is**, however often it is sent there. -/
theorem coerce_of_holds {t : ValueType} {v : Value} (h : t.Holds v) : t.coerce v = .ok v := by
  cases t with
  | void =>
    cases h
    rfl
  | int | float | bool =>
    obtain ⟨_, rfl⟩ := h
    rfl
  | string =>
    obtain rfl | ⟨s, rfl⟩ := h <;> rfl
  | object =>
    cases v with
    | void => exact absurd rfl h
    | _ => rfl

theorem holds_void_iff {t : ValueType} : t.Holds .void ↔ t = .void := by
  cases t <;> simp [Holds]

theorem eq_void_iff_of_holds {t : ValueType} {v : Value} (h : t.Holds v) :
    v = .void ↔ t = .void := by
  constructor
  · rintro rfl
    exact holds_void_iff.1 h
  · rintro rfl
    exact h

end ValueType

/-- A value that the local can have: one of its type, if it was declared with one. -/
def Local.Admits (l : Local) (v : Value) : Prop := ∀ t, l.type = some t → t.Holds v

namespace Activation

variable {complete : Prop} (a : Activation)

theorem ends_coerce (t : ValueType) (v : Value) :
    Ends (a.coerce t v) t.Holds (Halt.Harmless complete) := by
  rw [coerce]
  cases h : t.coerce v with
  | ok v' => exact .pure (ValueType.holds_of_coerce h)
  | error e => exact a.ends_fail rfl

theorem ends_initial (type : Option ValueType) (v : Value) :
    Ends (a.initial type v) (fun v' ↦ ∀ t, type = some t → t.Holds v')
      (Halt.Harmless complete) := by
  cases type with
  | none =>
    rw [initial]
    cases v.isVoid with
    | true => exact a.ends_fail rfl
    | false => exact .pure (by simp)
  | some t =>
    refine (a.ends_coerce t v).weaken fun v' hv' ↦ ?_
    rintro _ ⟨⟩
    exact hv'

theorem ends_assigned (type : Option ValueType) (v : Value) :
    Ends (a.assigned type v) (fun v' ↦ ∀ t, type = some t → t.Holds v')
      (Halt.Harmless complete) := by
  cases type with
  | none => exact .pure (by simp)
  | some t =>
    refine (a.ends_coerce t v).weaken fun v' hv' ↦ ?_
    rintro _ ⟨⟩
    exact hv'

end Activation

/-! ## Frames -/

/-- A frame of `size` slots in which the locals in `known` have been given values. -/
structure Frame (size : Nat) (known : List Local) (slots : Slots) : Prop where
  /-- The number of slots. -/
  size_eq : slots.size = size
  /-- Different locals have different slots. -/
  apart : known.Pairwise fun l l' ↦ l.slot ≠ l'.slot
  /-- Each local has a value that it can have. -/
  holds : ∀ l ∈ known, ∃ v, slots[l.slot]? = some v ∧ l.Admits v

namespace Frame

variable {size : Nat} {known : List Local} {slots : Slots}

theorem slot_lt (h : Frame size known slots) {l : Local} (hl : l ∈ known) : l.slot < size := by
  obtain ⟨v, hv, -⟩ := h.holds l hl
  rw [← h.size_eq]
  exact (Array.getElem?_eq_some_iff.1 hv).1

theorem eq_of_slot (h : Frame size known slots) {l l' : Local} (hl : l ∈ known) (hl' : l' ∈ known)
    (hs : l.slot = l'.slot) : l = l' :=
  List.inj_on_of_nodup_map (List.pairwise_map.2 h.apart) hl hl' hs

/-- A frame is also one for the locals outside of a declaration. -/
theorem outside {stmt : BoundStmt} (h : Frame size (stmt.known known) slots) :
    Frame size known slots := by
  cases stmt with
  | declare i type init =>
    exact ⟨h.size_eq, (List.pairwise_cons.1 h.apart).2, fun l hl ↦ h.holds l (.tail _ hl)⟩
  | _ => exact h

theorem declare (h : Frame size known slots) {i : Nat} {type : Option ValueType} {v : Value}
    (hi : i < size) (hfresh : ∀ l ∈ known, l.slot ≠ i) (hv : ∀ t, type = some t → t.Holds v) :
    Frame size (⟨i, type⟩ :: known) (slots.setIfInBounds i v) := by
  refine ⟨by rw [Array.size_setIfInBounds, h.size_eq], ?_, ?_⟩
  · exact .cons (fun l hl ↦ (hfresh l hl).symm) h.apart
  · rintro l (_ | ⟨_, hl⟩)
    · have hlt : i < slots.size := h.size_eq.symm ▸ hi
      exact ⟨v, Array.getElem?_setIfInBounds_self_of_lt hlt, hv⟩
    · obtain ⟨v', hv', ha⟩ := h.holds l hl
      exact ⟨v', by rw [Array.getElem?_setIfInBounds_ne (hfresh l hl).symm, hv'], ha⟩

theorem assign (h : Frame size known slots) {l : Local} (hl : l ∈ known) {v : Value}
    (hv : l.Admits v) : Frame size known (slots.setIfInBounds l.slot v) := by
  refine ⟨by rw [Array.size_setIfInBounds, h.size_eq], h.apart, fun l' hl' ↦ ?_⟩
  by_cases hs : l.slot = l'.slot
  · obtain rfl := h.eq_of_slot hl hl' hs
    have hlt : l.slot < slots.size := h.size_eq.symm ▸ h.slot_lt hl
    exact ⟨v, Array.getElem?_setIfInBounds_self_of_lt hlt, hv⟩
  · obtain ⟨v', hv', ha⟩ := h.holds l' hl'
    exact ⟨v', by rw [Array.getElem?_setIfInBounds_ne hs, hv'], ha⟩

variable {bad : Halt → Prop}

theorem ends_load (h : Frame size known slots) {l : Local} (hl : l ∈ known) :
    Ends (Activation.load slots l.slot) l.Admits bad := by
  obtain ⟨v, hv, ha⟩ := h.holds l hl
  simp only [Activation.load, hv]
  exact .pure ha

theorem ends_store (h : Frame size known slots) {i : Nat} (hi : i < size) (v : Value) :
    Ends (Activation.store slots i v) (fun slots' ↦ slots' = slots.setIfInBounds i v) bad := by
  rw [Activation.store]
  rw [if_pos (h.size_eq.symm ▸ hi)]
  exact .pure rfl

end Frame

/-! ## The start of a frame -/

/-- The values of some parameters. -/
def Supply (ps : List BoundParam) (vs : List Value) : Prop :=
  List.Forall₂ (fun q v ↦ q.type.Holds v) ps vs

/-- The defaults of the parameters trail, and so many arguments are enough for them. -/
def Enough (ps : List BoundParam) (count : Nat) : Prop :=
  (ps.Pairwise fun q r ↦ q.default?.isSome → r.default?.isSome) ∧
    ps.countP (fun q ↦ q.default?.isNone) ≤ count

theorem Enough.tail {q : BoundParam} {ps : List BoundParam} {count : Nat}
    (h : Enough (q :: ps) count) : Enough ps (count - 1) := by
  obtain ⟨htrail, hcount⟩ := h
  obtain ⟨hq, htrail⟩ := List.pairwise_cons.1 htrail
  refine ⟨htrail, ?_⟩
  cases hd : q.default? with
  | none =>
    rw [List.countP_cons_of_pos (by simp [hd])] at hcount
    exact Nat.le_sub_one_of_lt hcount
  | some v =>
    -- a default in front means that no argument is needed at all
    have hzero : ps.countP (fun q ↦ q.default?.isNone) = 0 := by
      rw [List.countP_eq_zero]
      intro r hr
      simpa [Option.isSome_iff_ne_none] using hq r hr (by simp [hd])
    rw [hzero]
    exact Nat.zero_le _

theorem Enough.isSome_of_zero {q : BoundParam} {ps : List BoundParam} (h : Enough (q :: ps) 0) :
    q.default?.isSome := by
  have hzero := List.countP_eq_zero.1 (Nat.le_zero.1 h.2) q (List.mem_cons_self ..)
  simpa [Option.isNone_iff_eq_none, Option.isSome_iff_ne_none] using hzero

namespace Activation

theorem ends_parameterSlots (a : Activation) (ps : List BoundParam) (args : List Value) :
    Ends (a.parameterSlots ps args) (Supply ps) (Halt.Harmless (Enough ps args.length)) := by
  induction ps generalizing args with
  | nil => exact .pure .nil
  | cons q qs ih =>
    have hrest : Ends (a.parameterSlots qs (args.drop 1)) (Supply qs)
        (Halt.Harmless (Enough (q :: qs) args.length)) := by
      refine (ih (args.drop 1)).mono (fun _ ↦ id) fun halt hh ↦ hh.mono fun henough ↦ ?_
      rw [List.length_drop]
      exact henough.tail
    have hgiven (v : Value) : Ends (do
        let v ← a.coerce q.type v
        let vs ← a.parameterSlots qs (args.drop 1)
        pure (v :: vs)) (Supply (q :: qs)) (Halt.Harmless (Enough (q :: qs) args.length)) :=
      (a.ends_coerce q.type v).bind fun v' hv' ↦ hrest.bind fun vs hvs ↦ .pure (.cons hv' hvs)
    unfold parameterSlots
    cases args with
    | cons arg args => exact hgiven arg
    | nil =>
      cases hd : q.default? with
      | some v => exact hgiven v
      | none =>
        have hfail : Ends (a.fail (.missingArgument q.name) : Run Value) (fun _ ↦ False)
            (Halt.Harmless (Enough (q :: qs) 0)) :=
          .throw fun henough ↦ absurd henough.isSome_of_zero (by simp [hd])
        exact hfail.bind fun _ ↦ False.elim

end Activation

theorem Supply.getElem? {ps : List BoundParam} {vs : List Value} (h : Supply ps vs)
    (before : List Value) : ∀ l ∈ paramLocals before.length ps,
      ∃ v, (before ++ vs)[l.slot]? = some v ∧ l.Admits v := by
  induction h generalizing before with
  | nil => simp [paramLocals]
  | @cons q v qs vs hv hrest ih =>
    rw [paramLocals]
    intro l hl
    rcases List.mem_cons.1 hl with rfl | hl
    · refine ⟨v, by simp, ?_⟩
      rintro _ ⟨⟩
      exact hv
    · have := ih (before ++ [v]) l (by simpa using hl)
      simpa using this

/-- The slots of a frame in which the parameters of a method have been filled. -/
def BoundMethod.startSlots (m : BoundMethod) (vs : List Value) : Slots :=
  vs.toArray ++ Array.replicate (m.frameSize - m.params.length) .null

/-- **The frame in which the body of a method starts.** -/
theorem frame_startSlots {m : BoundMethod} {p : BoundProgram} (h : m.WellFormed p)
    {vs : List Value} (hvs : Supply m.params vs) :
    Frame m.frameSize m.atStart (m.startSlots vs) := by
  have hlen : m.params.length = vs.length := List.Forall₂.length_eq hvs
  have hroom : m.params.length ≤ m.frameSize := by
    have := h.slots.1
    rw [BoundMethod.locals, List.length_append, length_paramLocals] at this
    omega
  refine ⟨?_, ?_, ?_⟩
  · simp only [BoundMethod.startSlots, Array.size_append, List.size_toArray, Array.size_replicate]
    omega
  · have hnd := (takes_paramLocals 0 m.params).nodup
    rw [← List.nodup_reverse, ← List.map_reverse] at hnd
    exact List.pairwise_map.1 hnd
  · intro l hl
    obtain ⟨v, hv, ha⟩ := hvs.getElem? [] l (List.mem_reverse.1 hl)
    refine ⟨v, ?_, ha⟩
    have hlt := (List.getElem?_eq_some_iff.1 hv).1
    rw [BoundMethod.startSlots, Array.getElem?_append_left (by simpa using hlt)]
    simpa using hv

theorem ends_slots {a : Activation} {p : BoundProgram} (h : a.method.WellFormed p)
    (args : List Value) :
    Ends (a.slots args) (Frame a.method.frameSize a.method.atStart)
      (Halt.Harmless (Enough a.method.params args.length)) :=
  (a.ends_parameterSlots a.method.params args).bind fun _ hvs ↦ .pure (frame_startSlots h hvs)

end Dossier.Script
