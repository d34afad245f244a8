import Dossier.CompileUnit.OfRecords
import Mathlib.Data.List.Basic

/-!
# When a signature is malformed

The record of a method describes its parameters by three lists.  `MethodRecord.Malformed` says of the
lists, place by place, when they describe none, and `MethodRecord.Describes` which conflict tells of
it.  `MethodRecord.params_spec` is the main statement: the parameters are there exactly if the lists
are not malformed, and what is there instead describes what is wrong with them.

The one loop goes through the parameters and remembers the last with a default.  Its invariant is
`ReadSoFar`, and `requiredAfterDefault_spec` says what the loop comes to.
-/

set_option autoImplicit false

namespace Dossier

/-- Behind a parameter that has a default, all have one. -/
def DefaultsTrail (ps : List Parameter) : Prop :=
  ps.Pairwise fun q r ↦ q.default?.isSome → r.default?.isSome

/-! ## The loop over the parameters -/

/-- What holds after the parameters in `front` have been read, `last` being remembered. -/
structure ReadSoFar (front : List Parameter) (last : Option String) : Prop where
  /-- Nothing was wrong. -/
  trail : DefaultsTrail front
  /-- Without a name none had a default. -/
  bare : last = none → ∀ q ∈ front, q.default? = none
  /-- A name is that of the last one, which has a default. -/
  named : ∀ name ∈ last, ∃ pre q, front = pre ++ [q] ∧ q.default?.isSome ∧ q.name = name

namespace ReadSoFar

variable {front : List Parameter} {last : Option String} {p : Parameter}

theorem nil : ReadSoFar [] none := ⟨.nil, fun _ _ h ↦ absurd h (by simp), by simp⟩

theorem concat_default (h : ReadSoFar front last) (hp : p.default?.isSome) :
    ReadSoFar (front ++ [p]) (some p.name) where
  trail := List.pairwise_append.2 ⟨h.trail, by simp, fun q _ r hr _ ↦ by
    rwa [List.mem_singleton.1 hr]⟩
  bare := by simp
  named := by
    rintro name ⟨⟩
    exact ⟨front, p, rfl, hp, rfl⟩

theorem concat_none (h : ReadSoFar front none) (hp : p.default? = none) :
    ReadSoFar (front ++ [p]) none where
  trail := List.pairwise_append.2 ⟨h.trail, by simp, fun q hq r _ hsome ↦ by
    simp [h.bare rfl q hq] at hsome⟩
  bare := by
    intro _ q hq
    rcases List.mem_append.1 hq with hq | hq
    · exact h.bare rfl q hq
    · rwa [List.mem_singleton.1 hq]
  named := by simp

end ReadSoFar

/-- **What the loop comes to.**  If it finds nothing, the defaults trail; if it finds something, it is
the first parameter without a default that follows one with a default, which stands right before. -/
theorem requiredAfterDefault_spec {front : List Parameter} {last : Option String}
    (h : ReadSoFar front last) (ps : List Parameter) :
    match requiredAfterDefault last ps with
    | none => DefaultsTrail (front ++ ps)
    | some problem => ∃ pre q x post, front ++ ps = pre ++ q :: x :: post ∧
        DefaultsTrail (pre ++ [q]) ∧ q.default?.isSome ∧ x.default? = none ∧
        problem = .required x.name q.name := by
  induction ps generalizing front last with
  | nil => simpa [requiredAfterDefault] using h.trail
  | cons p ps ih =>
    cases hp : p.default? with
    | some text =>
      have hstep : requiredAfterDefault last (p :: ps) = requiredAfterDefault (some p.name) ps := by
        simp [requiredAfterDefault, hp]
      rw [hstep]
      have hnext := ih (h.concat_default (p := p) (by simp [hp]))
      rwa [List.append_assoc, List.singleton_append] at hnext
    | none =>
      cases last with
      | none =>
        have hstep : requiredAfterDefault none (p :: ps) = requiredAfterDefault none ps := by
          simp [requiredAfterDefault, hp]
        rw [hstep]
        have hnext := ih (h.concat_none hp)
        rwa [List.append_assoc, List.singleton_append] at hnext
      | some name =>
        obtain ⟨pre, q, rfl, hq, rfl⟩ := h.named name rfl
        have hstep : requiredAfterDefault (some q.name) (p :: ps) =
            some (.required p.name q.name) := by
          simp [requiredAfterDefault, hp]
        rw [hstep]
        exact ⟨pre, q, p, ps, by simp, h.trail, hq, hp, rfl⟩

/-! ## The lists of a record -/

namespace MethodRecord

variable {r : MethodRecord}

/-- The default of the parameter at a place, if it has one. -/
def defaultAt? (r : MethodRecord) (i : Nat) : Option String := (r.paramDefaults[i]?).join

/-- The lists are not of one length, where that of the defaults may be left out. -/
def Misaligned (r : MethodRecord) : Prop :=
  r.paramTypes.length ≠ r.paramNames.length ∨
    r.paramDefaults ≠ [] ∧ r.paramDefaults.length ≠ r.paramNames.length

/-- The lists are not of one length, or a parameter without a default follows one that has a
default. -/
def Malformed (r : MethodRecord) : Prop :=
  r.Misaligned ∨ ∃ j, j < r.paramNames.length ∧
    ∃ i, i < j ∧ (r.defaultAt? i).isSome ∧ r.defaultAt? j = none

instance (r : MethodRecord) : Decidable r.Misaligned := inferInstanceAs (Decidable (_ ∨ _))

instance : DecidablePred Malformed := fun r ↦
  inferInstanceAs (Decidable (r.Misaligned ∨ ∃ j, j < r.paramNames.length ∧
    ∃ i, i < j ∧ (r.defaultAt? i).isSome ∧ r.defaultAt? j = none))

/-- A problem tells what is wrong with the lists: their lengths, or else the first parameter that has
no default though one before it has, and the last of these. -/
def Describes (r : MethodRecord) : SignatureProblem → Prop
  | .length types names defaults => r.Misaligned ∧ types = r.paramTypes.length ∧
      names = r.paramNames.length ∧ defaults = r.paramDefaults.length
  | .required param defaulted => ¬ r.Misaligned ∧ ∃ j, r.paramNames[j]? = some defaulted ∧
      r.paramNames[j + 1]? = some param ∧ (r.defaultAt? j).isSome ∧ r.defaultAt? (j + 1) = none ∧
      ∀ i k, i < k → k ≤ j → (r.defaultAt? i).isSome → (r.defaultAt? k).isSome

theorem fits_iff : r.fits = true ↔ ¬ r.Misaligned := by
  rw [fits, defaults, Misaligned, Bool.and_eq_true, decide_eq_true_eq, decide_eq_true_eq]
  by_cases hempty : r.paramDefaults = []
  · simp [hempty]
  · rw [if_neg (by simpa using hempty)]
    simp [hempty]

theorem getElem?_defaults (h : ¬ r.Misaligned) {i : Nat} (hi : i < r.paramNames.length) :
    r.defaults[i]? = some (r.defaultAt? i) := by
  rw [defaults, defaultAt?]
  by_cases hempty : r.paramDefaults = []
  · rw [if_pos (by simpa using hempty), List.getElem?_map, List.getElem?_eq_getElem hi, hempty]
    rfl
  · have hlength : r.paramDefaults.length = r.paramNames.length :=
      by_contra fun hne ↦ h (.inr ⟨hempty, hne⟩)
    rw [if_neg (by simpa using hempty), List.getElem?_eq_getElem (hlength ▸ hi)]
    rfl

/-- The parameters are put together place by place. -/
theorem getElem?_zipped_eq_some_iff (h : ¬ r.Misaligned) {i : Nat} {p : Parameter} :
    r.zipped[i]? = some p ↔ r.paramTypes[i]? = some p.type ∧ r.paramNames[i]? = some p.name ∧
      p.default? = r.defaultAt? i := by
  rw [zipped, List.getElem?_map, Option.map_eq_some_iff]
  constructor
  · rintro ⟨⟨⟨type, name⟩, default?⟩, hzip, rfl⟩
    obtain ⟨hzip, hdefault⟩ := List.getElem?_zip_eq_some.1 hzip
    obtain ⟨htype, hname⟩ := List.getElem?_zip_eq_some.1 hzip
    rw [getElem?_defaults h (List.getElem?_eq_some_iff.1 hname).1, Option.some.injEq] at hdefault
    exact ⟨htype, hname, hdefault.symm⟩
  · rintro ⟨htype, hname, hdefault⟩
    refine ⟨((p.type, p.name), p.default?), ?_, rfl⟩
    rw [List.getElem?_zip_eq_some, List.getElem?_zip_eq_some]
    refine ⟨⟨htype, hname⟩, ?_⟩
    rw [getElem?_defaults h (List.getElem?_eq_some_iff.1 hname).1, hdefault]

theorem map_zipped (h : ¬ r.Misaligned) :
    r.zipped.map Parameter.type = r.paramTypes ∧ r.zipped.map Parameter.name = r.paramNames := by
  have hfits := fits_iff.2 h
  rw [fits, Bool.and_eq_true, decide_eq_true_eq, decide_eq_true_eq] at hfits
  obtain ⟨htypes, hdefaults⟩ := hfits
  have hpairs : ((r.paramTypes.zip r.paramNames).zip r.defaults).map Prod.fst =
      r.paramTypes.zip r.paramNames :=
    List.map_fst_zip (Nat.le_of_eq (by rw [List.length_zip, htypes, hdefaults, Nat.min_self]))
  rw [zipped, List.map_map, List.map_map]
  constructor
  · calc _ = (((r.paramTypes.zip r.paramNames).zip r.defaults).map Prod.fst).map Prod.fst := by
          rw [List.map_map]; rfl
      _ = r.paramTypes := by rw [hpairs, List.map_fst_zip (Nat.le_of_eq htypes)]
  · calc _ = (((r.paramTypes.zip r.paramNames).zip r.defaults).map Prod.fst).map Prod.snd := by
          rw [List.map_map]; rfl
      _ = r.paramNames := by rw [hpairs, List.map_snd_zip (Nat.le_of_eq htypes.symm)]

theorem length_zipped (h : ¬ r.Misaligned) : r.zipped.length = r.paramNames.length := by
  rw [← (map_zipped h).2, List.length_map]

/-- The default at a place is that of the parameter there. -/
theorem defaultAt?_eq (h : ¬ r.Misaligned) {i : Nat} {p : Parameter}
    (hp : r.zipped[i]? = some p) : r.defaultAt? i = p.default? :=
  ((getElem?_zipped_eq_some_iff h).1 hp).2.2.symm

/-- Lists of one length are well formed exactly if the defaults trail. -/
theorem malformed_iff_of_aligned (h : ¬ r.Misaligned) :
    r.Malformed ↔ ¬ DefaultsTrail r.zipped := by
  rw [Malformed, or_iff_right h, DefaultsTrail, List.pairwise_iff_getElem, ← length_zipped h]
  have hat {i : Nat} (hi : i < r.zipped.length) : r.defaultAt? i = r.zipped[i].default? :=
    defaultAt?_eq h (List.getElem?_eq_getElem hi)
  constructor
  · rintro ⟨j, hj, i, hi, hsome, hnone⟩ htrail
    have := htrail i j (Nat.lt_trans hi hj) hj hi (by rwa [← hat])
    rw [← hat hj, hnone] at this
    exact absurd this (by simp)
  · intro htrail
    simp only [not_forall] at htrail
    obtain ⟨i, j, hi, hj, hij, hsome, hnone⟩ := htrail
    exact ⟨j, hj, i, hij, by rwa [hat hi], by simpa [hat hj] using hnone⟩

/-- **The parameters of a record** are there exactly if its lists are well formed, and otherwise there
is a problem that describes the lists. -/
theorem params_spec (r : MethodRecord) :
    match r.params with
    | .ok ps => ¬ r.Malformed ∧ ps = r.zipped
    | .error problem => r.Malformed ∧ r.Describes problem := by
  rw [params]
  by_cases h : r.Misaligned
  · rw [if_neg (mt fits_iff.1 (not_not.2 h))]
    exact ⟨.inl h, h, rfl, rfl, rfl⟩
  · have hloop := requiredAfterDefault_spec .nil r.zipped
    rw [if_pos (fits_iff.2 h)]
    cases hfound : requiredAfterDefault none r.zipped with
    | none =>
      rw [hfound, List.nil_append] at hloop
      exact ⟨mt (malformed_iff_of_aligned h).1 (not_not.2 hloop), rfl⟩
    | some problem =>
      rw [hfound, List.nil_append] at hloop
      obtain ⟨pre, q, x, post, hzipped, htrail, hq, hx, rfl⟩ := hloop
      have hqat : r.zipped[pre.length]? = some q := by simp [hzipped]
      have hxat : r.zipped[pre.length + 1]? = some x := by simp [hzipped]
      refine ⟨(malformed_iff_of_aligned h).2 fun hall ↦ ?_, h, pre.length, ?_, ?_, ?_, ?_, ?_⟩
      · rw [hzipped, DefaultsTrail, List.pairwise_append] at hall
        have := (List.pairwise_cons.1 hall.2.1).1 x (List.mem_cons_self ..) hq
        rw [hx] at this
        exact absurd this (by simp)
      · exact ((getElem?_zipped_eq_some_iff h).1 hqat).2.1
      · exact ((getElem?_zipped_eq_some_iff h).1 hxat).2.1
      · rwa [defaultAt?_eq h hqat]
      · rwa [defaultAt?_eq h hxat]
      · intro i k hik hk
        have hlength : (pre ++ [q]).length = pre.length + 1 := by simp
        have hat {i : Nat} (hi : i < (pre ++ [q]).length) :
            r.defaultAt? i = (pre ++ [q])[i].default? := by
          refine defaultAt?_eq h ?_
          rw [hzipped, List.append_cons, List.getElem?_append_left hi,
            List.getElem?_eq_getElem hi]
        rw [hat (by omega), hat (by omega)]
        exact List.pairwise_iff_getElem.1 htrail i k (by omega) (by omega) hik

end MethodRecord

end Dossier
