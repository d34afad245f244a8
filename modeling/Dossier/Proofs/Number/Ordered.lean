import Mathlib
import Dossier.Proofs.Number.Significant

/-!
# The order of whole numbers as doubles

A whole number of 64 bits becomes a double by rounding to 53 digits, and doubles that come about in
this way are ordered as the rounded numbers are.

* `shiftRight_eq` says what the shifts of the double's model leave of a number: a quotient, a digit
  and a flag, which is enough for the nearest quotient (`roundedMantissa_shiftRight`).
* `Stands x z` says that an unpacked double is the whole number `z`, in the normal form that the
  comparison of doubles asks for: all but zero have a mantissa of 53 digits.  `Stands.compare_eq`,
  `Stands.neg` and `Stands.unpack_pack` are what comparing, negating and packing do to it.
* `stands_ofNat` follows the rounding of a number, and `represents_floatOfInt` is the result for the
  doubles of scripts.
* `Represents.lt_iff` and `Represents.le_iff` say that such doubles are ordered as the numbers are.
-/

set_option autoImplicit false

namespace Dossier.Number

open Float.Model Float.Model.UnpackedFloat

/-! ## Shifting -/

/-- A number of which nothing has been shifted out. -/
def unshifted (n : Nat) : ExtendedMantissa := ⟨n, false, false⟩

/-- What is left after shifting: the quotient, the last digit that went out, and whether there was
anything below it. -/
theorem shiftRight_eq (n s : Nat) :
    unshifted n >>> s =
      ⟨n / 2 ^ s, decide (2 ^ s ≤ 2 * (n % 2 ^ s)), decide (2 * (n % 2 ^ s) % 2 ^ s ≠ 0)⟩ := by
  induction s with
  | zero => simp [HShiftRight.hShiftRight, Nat.repeat, unshifted, Nat.mod_one]
  | succ s ih =>
    have hshift : unshifted n >>> (s + 1) = (unshifted n >>> s).shiftRightOne := rfl
    have hpos := Nat.two_pow_pos s
    have hlow : n % 2 ^ s < 2 ^ s := Nat.mod_lt _ hpos
    rw [hshift, ih, ExtendedMantissa.shiftRightOne, ExtendedMantissa.mk.injEq]
    refine ⟨by rw [Nat.div_div_eq_div_mul, Nat.pow_succ], ?_, ?_⟩
    · have hdigit : n / 2 ^ s % 2 = 0 ∨ n / 2 ^ s % 2 = 1 := Nat.mod_two_eq_zero_or_one _
      rw [Nat.mod_pow_succ, Nat.pow_succ]
      rcases hdigit with h | h <;> simp [h] <;> omega
    · have hrest : 2 * (n % 2 ^ (s + 1)) % 2 ^ (s + 1) = 2 * (n % 2 ^ s) := by
        rw [Nat.pow_succ', Nat.mul_mod_mul_left, Nat.mod_mul_left_mod]
      rw [hrest]
      by_cases hhalf : 2 ^ s ≤ 2 * (n % 2 ^ s)
      · simp [hhalf]; omega
      · rw [Nat.mod_eq_of_lt (Nat.lt_of_not_le hhalf)]
        simp [hhalf]

/-- **The model rounds to the nearest quotient.** -/
theorem roundedMantissa_shiftRight (n s : Nat) :
    (unshifted n >>> s).roundedMantissa = Double.nearest n (-(s : Int)) := by
  have hlow : n % 2 ^ s < 2 ^ s := Nat.mod_lt _ (Nat.two_pow_pos s)
  rw [shiftRight_eq, Double.nearest_neg, ExtendedMantissa.roundedMantissa]
  by_cases hhalf : 2 ^ s ≤ 2 * (n % 2 ^ s)
  · -- the last digit is set, and what is below it decides
    have hrest : 2 * (n % 2 ^ s) % 2 ^ s = 2 * (n % 2 ^ s) - 2 ^ s := by
      rw [Nat.mod_eq_sub_mod hhalf, Nat.mod_eq_of_lt (by omega)]
    rw [hrest, if_neg (by omega)]
    by_cases hmore : 2 ^ s < 2 * (n % 2 ^ s)
    · have hne : 2 * (n % 2 ^ s) - 2 ^ s ≠ 0 := by omega
      simp [hhalf, hne, hmore, ExtendedMantissa.accuracy, Accuracy.roundToNearestEven]
    · have heq : 2 * (n % 2 ^ s) - 2 ^ s = 0 := by omega
      simp [hhalf, heq, hmore, ExtendedMantissa.accuracy, Accuracy.roundToNearestEven]
  · rw [Nat.mod_eq_of_lt (Nat.lt_of_not_le hhalf), if_pos (Nat.lt_of_not_le hhalf)]
    by_cases hzero : 2 * (n % 2 ^ s) = 0 <;>
      simp [hhalf, hzero, ExtendedMantissa.accuracy, Accuracy.roundToNearestEven]

/-! ## Rounding -/

/-- The digits that are too many are shifted out. -/
theorem shiftToTargetExponent_eq {m : Nat} {e : Int} (he : -1074 ≤ e) :
    shiftToTargetExponent .binary64 m e .exact =
      (unshifted m >>> (m.log2 - 52), e + (m.log2 - 52 : Nat)) := by
  have hshift : (Format.binary64.targetExponent (totalExponent m e) - e).toNat = m.log2 - 52 := by
    change (max ((m.log2 : Int) + 1 + e - 53) (-1074) - e).toNat = _
    omega
  rw [shiftToTargetExponent, shiftToExponent, hshift]
  rfl

/-- Rounding and shifting once more, where the rounding has carried. -/
theorem roundWithAccuracy_eq {s : Sign} {m r : Nat} {e : Int} (he : -1074 ≤ e)
    (hr : r = Double.nearest m (-((m.log2 - 52 : Nat) : Int)))
    (hpos : 0 < r / 2 ^ (r.log2 - 52)) :
    roundWithAccuracy .binary64 s m e .exact =
      .finite s (r / 2 ^ (r.log2 - 52)) (e + (m.log2 - 52 : Nat) + (r.log2 - 52 : Nat)) hpos := by
  have hround := roundedMantissa_shiftRight m (m.log2 - 52)
  have hmantissa : (unshifted r >>> (r.log2 - 52)).mantissa = r / 2 ^ (r.log2 - 52) := by
    rw [shiftRight_eq]
  rw [roundWithAccuracy, shiftToTargetExponent_eq he]
  have hsecond := shiftToTargetExponent_eq (m := r) (e := e + (m.log2 - 52 : Nat)) (by omega)
  simp only [hround, ← hr, hsecond, hmantissa, hpos.ne', dite_false]

/-! ## Normal form -/

/-- The double is the whole number, in normal form. -/
inductive Stands : UnpackedFloat → Int → Prop
  | zero (s : Sign) : Stands (.zero s) 0
  | finite {s : Sign} {m k : Nat} {z : Int} (hm : 0 < m) :
    2 ^ 52 ≤ m → m < 2 ^ 53 → k ≤ 64 → z * 2 ^ 52 = s.apply (m * 2 ^ k : Nat) →
    Stands (.finite s m (k - 52) hm) z

/-! ### Comparing -/

/-- Comparisons of two pairs that are ordered in the same way. -/
theorem compare_congr {α β : Type} [LinearOrder α] [LinearOrder β] {a b : α} {c d : β}
    (hlt : a < b ↔ c < d) (hgt : b < a ↔ d < c) : compare a b = compare c d := by
  rcases lt_trichotomy a b with h | h | h
  · rw [compare_lt_iff_lt.2 h, compare_lt_iff_lt.2 (hlt.1 h)]
  · have hcd : c = d := by
      subst h
      exact le_antisymm (not_lt.1 (hgt.not.1 (lt_irrefl a))) (not_lt.1 (hlt.not.1 (lt_irrefl a)))
    rw [compare_eq_iff_eq.2 h, compare_eq_iff_eq.2 hcd]
  · rw [compare_gt_iff_gt.2 h, compare_gt_iff_gt.2 (hgt.1 h)]

/-- Numbers in normal form are compared by their exponents first. -/
theorem compare_normal {m m' : Nat} (k k' : Nat) (hm : 2 ^ 52 ≤ m ∧ m < 2 ^ 53)
    (hm' : 2 ^ 52 ≤ m' ∧ m' < 2 ^ 53) :
    (compare ((k : Int) - 52) (k' - 52)).then (compare m m') =
      compare (m * 2 ^ k) (m' * 2 ^ k') := by
  -- a smaller exponent makes a smaller number, whatever the mantissas
  have hlt {m m' k k' : Nat} (hm : m < 2 ^ 53) (hm' : 2 ^ 52 ≤ m') (hk : k < k') :
      m * 2 ^ k < m' * 2 ^ k' := by
    calc m * 2 ^ k < 2 ^ 53 * 2 ^ k := Nat.mul_lt_mul_of_pos_right hm (Nat.two_pow_pos k)
      _ = 2 ^ 52 * 2 ^ (k + 1) := by ring
      _ ≤ 2 ^ 52 * 2 ^ k' := Nat.mul_le_mul_left _ (Nat.pow_le_pow_right (by decide) hk)
      _ ≤ m' * 2 ^ k' := Nat.mul_le_mul_right _ hm'
  rcases lt_trichotomy k k' with hk | rfl | hk
  · rw [compare_lt_iff_lt.2 (by omega), compare_lt_iff_lt.2 (hlt hm.2 hm'.1 hk)]
    rfl
  · have hpos : 0 < 2 ^ k := Nat.two_pow_pos k
    rw [compare_eq_iff_eq.2 rfl]
    exact compare_congr (Nat.mul_lt_mul_right hpos).symm (Nat.mul_lt_mul_right hpos).symm
  · rw [compare_gt_iff_gt.2 (by omega), compare_gt_iff_gt.2 (hlt hm'.2 hm.1 hk)]
    rfl

namespace Stands

variable {x y : UnpackedFloat} {a b : Int}

/-- **Doubles are ordered as the numbers that they are.** -/
theorem compare_eq (hx : Stands x a) (hy : Stands y b) : x.compare y = some (compare a b) := by
  rw [compare_congr (a := a) (b := b) (c := a * 2 ^ 52) (d := b * 2 ^ 52) (by omega) (by omega)]
  cases hx with
  | zero s =>
    cases hy with
    | zero t => rfl
    | @finite t n l _ hn hlo hhi hl hb =>
      have hpos : 0 < n * 2 ^ l := Nat.mul_pos hn (Nat.two_pow_pos l)
      rw [hb]
      cases t with
      | positive => rw [Sign.apply, compare_lt_iff_lt.2 (by omega)]; rfl
      | negative => rw [Sign.apply, compare_gt_iff_gt.2 (by omega)]; rfl
  | @finite s m k _ hm hlo hhi hk ha =>
    have hpos : 0 < m * 2 ^ k := Nat.mul_pos hm (Nat.two_pow_pos k)
    rw [ha]
    cases hy with
    | zero t =>
      cases s with
      | positive => rw [Sign.apply, compare_gt_iff_gt.2 (by omega)]; rfl
      | negative => rw [Sign.apply, compare_lt_iff_lt.2 (by omega)]; rfl
    | @finite t n l _ hn hlo' hhi' hl hb =>
      have hpos' : 0 < n * 2 ^ l := Nat.mul_pos hn (Nat.two_pow_pos l)
      have hnormal := compare_normal k l ⟨hlo, hhi⟩ ⟨hlo', hhi'⟩
      rw [hb]
      cases s with
      | positive =>
        cases t with
        | positive =>
          rw [Sign.apply, Sign.apply, compare_congr Int.ofNat_lt Int.ofNat_lt, ← hnormal]
          rfl
        | negative => rw [Sign.apply, Sign.apply, compare_gt_iff_gt.2 (by omega)]; rfl
      | negative =>
        cases t with
        | positive => rw [Sign.apply, Sign.apply, compare_lt_iff_lt.2 (by omega)]; rfl
        | negative =>
          rw [Sign.apply, Sign.apply, compare_congr (c := n * 2 ^ l) (d := m * 2 ^ k) (by omega)
            (by omega), Std.OrientedOrd.eq_swap, ← hnormal]
          rfl

theorem neg (h : Stands x a) : Stands x.neg (-a) := by
  cases h with
  | zero s => exact .zero _
  | @finite s m k _ hm hlo hhi hk ha =>
    refine .finite hm hlo hhi hk ?_
    rw [Int.neg_mul, ha]
    cases s with
    | positive => rfl
    | negative => exact Int.neg_neg _

end Stands

/-! ### Packing -/

/-- A number in normal form is packed without its leading digit. -/
theorem pack_normal {s : Sign} {m k : Nat} (hm : 0 < m) (hlo : 2 ^ 52 ≤ m) (hhi : m < 2 ^ 53)
    (hk : k ≤ 64) :
    UnpackedFloat.pack .binary64 (.finite s m (k - 52) hm) =
      packComponents .binary64 s (BitVec.ofNat 11 (k + 1023)) (BitVec.ofNat 52 m) := by
  have hlog : m.log2 = 52 := (Nat.log2_eq_iff (by omega)).2 ⟨hlo, hhi⟩
  have hbias : Format.binary64.exponentBias = 1023 := rfl
  have hexponent : ((k : Int) - 52 + (1023 : Nat) + (52 : Nat)).toNat = k + 1023 := by omega
  rw [UnpackedFloat.pack]
  simp only [hlog, hbias, hexponent]
  rw [if_neg (by omega), if_pos (by rfl)]

/-- The leading digit comes back. -/
theorem unpack_normal {s : Sign} {m k : Nat} (hm : 0 < m) (hlo : 2 ^ 52 ≤ m) (hhi : m < 2 ^ 53)
    (hk : k ≤ 64) :
    UnpackedFloat.unpack .binary64
      (packComponents .binary64 s (BitVec.ofNat 11 (k + 1023)) (BitVec.ofNat 52 m)) =
        .finite s m (k - 52) hm := by
  have hbias : Format.binary64.exponentBias = 1023 := rfl
  have hexponent : (BitVec.ofNat 11 (k + 1023)).toNat = k + 1023 := by
    rw [BitVec.toNat_ofNat, Nat.mod_eq_of_lt (by omega)]
  have hfinite : BitVec.ofNat 11 (k + 1023) ≠ -1#11 := fun h ↦ by
    have : k + 1023 = 2047 := hexponent.symm.trans (congrArg BitVec.toNat h)
    omega
  have hnormal : BitVec.ofNat 11 (k + 1023) ≠ 0#11 := fun h ↦ by
    have : k + 1023 = 0 := hexponent.symm.trans (congrArg BitVec.toNat h)
    omega
  have hmantissa : (1#1 ++ BitVec.ofNat 52 m).toNat = m := by
    rw [BitVec.toNat_append, ← Nat.shiftLeft_add_eq_or_of_lt (BitVec.ofNat 52 m).isLt,
      BitVec.toNat_ofNat, Nat.shiftLeft_eq, BitVec.toNat_ofNat]
    omega
  have hback : ((k + 1023 : Nat) : Int) - ((1023 : Nat) + (52 : Nat)) = k - 52 := by omega
  rw [UnpackedFloat.unpack]
  simp only [unpackMantissa_packComponents, unpackExponent_packComponents,
    unpackSign_packComponents, Sign.ofBitVec_toBitVec]
  rw [if_neg hfinite, if_neg hnormal]
  simp only [hmantissa, hexponent, hbias, hback]

/-- **Packing loses nothing.** -/
theorem Stands.unpack_pack {x : UnpackedFloat} {a : Int} (h : Stands x a) :
    (Float.Model.pack x).unpack = x := by
  cases h with
  | zero s => cases s <;> rfl
  | finite hm hlo hhi hk _ =>
    exact (congrArg (UnpackedFloat.unpack .binary64) (pack_normal hm hlo hhi hk)).trans
      (unpack_normal hm hlo hhi hk)

/-! ## Whole numbers -/

theorem log2_shiftLeft {n : Nat} (hn : n ≠ 0) (t : Nat) : (n <<< t).log2 = n.log2 + t := by
  have hpos := Nat.two_pow_pos t
  rw [Nat.shiftLeft_eq, Nat.log2_eq_iff (Nat.mul_ne_zero hn hpos.ne')]
  constructor
  · rw [Nat.pow_add]
    exact Nat.mul_le_mul_right _ (Nat.log2_self_le hn)
  · rw [Nat.add_right_comm, Nat.pow_add]
    exact Nat.mul_lt_mul_of_pos_right Nat.lt_log2_self hpos

/-- The 53 digits of a rounded number, in front of its point. -/
theorem nearest_shiftLeft_mul (n : Nat) :
    Double.nearest (n <<< (52 - n.log2)) (-((n.log2 - 52 : Nat) : Int)) * 2 ^ n.log2 =
      roundNat n * 2 ^ 52 := by
  rcases Nat.le_total n.log2 52 with h | h
  · rw [roundNat_of_log2_le h, Nat.sub_eq_zero_of_le h, Nat.shiftLeft_eq]
    have hself := Double.nearest_mul (n * 2 ^ (52 - n.log2)) 0
    rw [Nat.pow_zero, Nat.mul_one] at hself
    rw [hself, Nat.mul_assoc, ← Nat.pow_add, Nat.sub_add_cancel h]
  · rw [Nat.sub_eq_zero_of_le h, Nat.shiftLeft_zero, roundNat, twoTo_eq, Nat.mul_assoc,
      ← Nat.pow_add, Nat.sub_add_cancel h]

/-- They are 53 digits, or there is a carry to the next one. -/
theorem nearest_shiftLeft_bounds {n : Nat} (hn : n ≠ 0) :
    2 ^ 52 ≤ Double.nearest (n <<< (52 - n.log2)) (-((n.log2 - 52 : Nat) : Int)) ∧
      Double.nearest (n <<< (52 - n.log2)) (-((n.log2 - 52 : Nat) : Int)) ≤ 2 ^ 53 := by
  have hpos := Nat.two_pow_pos n.log2
  constructor
  · refine Nat.le_of_mul_le_mul_right ?_ hpos
    rw [nearest_shiftLeft_mul, Nat.mul_comm]
    exact Nat.mul_le_mul_right _ (le_roundNat hn)
  · refine Nat.le_of_mul_le_mul_right ?_ hpos
    rw [nearest_shiftLeft_mul]
    calc roundNat n * 2 ^ 52 ≤ 2 ^ (n.log2 + 1) * 2 ^ 52 :=
          Nat.mul_le_mul_right _ (roundNat_le n)
      _ = 2 ^ 53 * 2 ^ n.log2 := by ring

/-- Where rounding has carried to a 54th digit, that is shifted out. -/
theorem carried {r : Nat} (hlo : 2 ^ 52 ≤ r) (hhi : r ≤ 2 ^ 53) :
    r.log2 - 52 ≤ 1 ∧ 2 ^ 52 ≤ r / 2 ^ (r.log2 - 52) ∧ r / 2 ^ (r.log2 - 52) < 2 ^ 53 ∧
      r / 2 ^ (r.log2 - 52) * 2 ^ (r.log2 - 52) = r := by
  rcases hhi.lt_or_eq with h | rfl
  · have hlog : r.log2 = 52 := (Nat.log2_eq_iff (by omega)).2 ⟨hlo, h⟩
    simp only [hlog]
    omega
  · decide +kernel

/-- A number that is too short is lengthened before it is rounded. -/
theorem ofNat_eq {n : Nat} (hn : n ≠ 0) :
    UnpackedFloat.ofNat .binary64 n =
      roundWithAccuracy .binary64 .positive (n <<< (52 - n.log2)) (0 - (52 - n.log2 : Nat))
        .exact := by
  have hshift : ((0 : Int) - Format.binary64.targetExponent (totalExponent n 0)).toNat =
      52 - n.log2 := by
    change ((0 : Int) - max ((n.log2 : Int) + 1 + 0 - 53) (-1074)).toNat = _
    omega
  rw [UnpackedFloat.ofNat, UnpackedFloat.ofInt, UnpackedFloat.normalize,
    compare_gt_iff_gt.2 (by omega)]
  simp only [UnpackedFloat.round, decreaseExponent, Int.toNat_natCast, hshift]

/-- **A number without sign is rounded.** -/
theorem stands_ofNat {n : Nat} (h : n < 2 ^ 64) :
    Stands (UnpackedFloat.ofNat .binary64 n) (roundNat n) := by
  rcases Nat.eq_zero_or_pos n with rfl | hpos
  · exact .zero _
  have hn : n ≠ 0 := by omega
  have hlog : n.log2 < 64 := (Nat.log2_lt hn).2 h
  have hlog' : (n <<< (52 - n.log2)).log2 - 52 = n.log2 - 52 := by
    rw [log2_shiftLeft hn]
    omega
  -- the 53 digits of the rounded number, and one more if the rounding has carried
  obtain ⟨r, hr⟩ : ∃ r, r = Double.nearest (n <<< (52 - n.log2)) (-((n.log2 - 52 : Nat) : Int)) :=
    ⟨_, rfl⟩
  have hvalue : r * 2 ^ n.log2 = roundNat n * 2 ^ 52 := hr ▸ nearest_shiftLeft_mul n
  obtain ⟨hlo, hhi⟩ : 2 ^ 52 ≤ r ∧ r ≤ 2 ^ 53 := hr ▸ nearest_shiftLeft_bounds hn
  obtain ⟨hj, hlo', hhi', hdigits⟩ := carried hlo hhi
  have hround := roundWithAccuracy_eq (s := .positive) (r := r) (m := n <<< (52 - n.log2))
    (e := 0 - (52 - n.log2 : Nat)) (by omega) (by rw [hr, hlog']) (by omega)
  have hexponent : (0 : Int) - (52 - n.log2 : Nat) + ((n <<< (52 - n.log2)).log2 - 52 : Nat) +
      (r.log2 - 52 : Nat) = (n.log2 + (r.log2 - 52) : Nat) - 52 := by
    omega
  rw [ofNat_eq hn, hround]
  simp only [hexponent]
  refine .finite _ hlo' hhi' (by omega) ?_
  rw [Sign.apply, Nat.add_comm, Nat.pow_add, ← Nat.mul_assoc, hdigits, hvalue]
  push_cast
  rfl

/-! ## Doubles -/

/-- The double is the whole number. -/
def Represents (x : Float) (z : Int) : Prop := Stands x.toModel.unpack z

namespace Represents

variable {x y : Float} {a b : Int}

theorem neg (h : Represents x a) : Represents (-x) (-a) := by
  have hneg : Stands x.toModel.unpack.neg (-a) := Stands.neg h
  change Stands (Float.Model.pack x.toModel.unpack.neg).unpack (-a)
  rwa [hneg.unpack_pack]

/-- **Such doubles are ordered as the numbers are.** -/
theorem lt_iff (hx : Represents x a) (hy : Represents y b) : x < y ↔ a < b := by
  change decide ((x.toModel.unpack.compare y.toModel.unpack == some .lt) = true) = true ↔ _
  rw [decide_eq_true_iff, Stands.compare_eq hx hy, ← compare_lt_iff_lt]
  simp

theorem le_iff (hx : Represents x a) (hy : Represents y b) : x ≤ y ↔ a ≤ b := by
  change decide ((x.toModel.unpack.compare y.toModel.unpack).any (·.isLE) = true) = true ↔ _
  rw [decide_eq_true_iff, Stands.compare_eq hx hy, ← compare_le_iff_le, Option.any_some,
    Ordering.isLE_iff_ne_gt]

end Represents

/-- A double from a word without sign is the rounded number. -/
theorem represents_toFloat {n : Nat} (h : n < 2 ^ 64) :
    Represents (UInt64.ofNat n).toFloat (roundNat n) := by
  have hword : (UInt64.ofNat n).toNat = n := by
    rw [UInt64.toNat_ofNat', Nat.mod_eq_of_lt h]
  have hstands := stands_ofNat h
  change Stands (Float.Model.pack (UnpackedFloat.ofNat .binary64 (UInt64.ofNat n).toNat)).unpack _
  rwa [hword, hstands.unpack_pack]

/-- **A whole number becomes the double that is the rounded number.** -/
theorem represents_floatOfInt (n : Int64) : Represents (floatOfInt n) (roundInt n.toInt) := by
  have hlt : n.toInt.natAbs < 2 ^ 64 := by
    have := n.le_toInt
    have := n.toInt_lt
    omega
  rw [floatOfInt, roundInt]
  split
  · exact (represents_toFloat hlt).neg
  · exact represents_toFloat hlt

end Dossier.Number
