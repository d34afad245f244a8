import Mathlib.Algebra.Order.Ring.Nat
import Dossier.Number.Double

/-!
# Whole numbers with few significant digits

A double holds the 53 leading binary digits of a whole number.  `roundNat` is the nearest number
that has no others, the even one of two, and `roundInt` does the same on both sides of zero.

* `roundNat_mono` and `roundInt_mono` say that rounding keeps the order, although it may make
  different numbers equal.
* `roundInt_of_natAbs_le` says that it changes no number up to `2 ^ 53`.
-/

set_option autoImplicit false

namespace Dossier.Number

/-! ## The nearest multiple of a power of two -/

theorem twoTo_eq (n : Nat) : twoTo n = 2 ^ n := rfl

namespace Double

/-- The nearest quotient, in terms of the quotient and the remainder. -/
theorem nearest_neg (n s : Nat) :
    nearest n (-(s : Int)) =
      if 2 * (n % 2 ^ s) < 2 ^ s then n / 2 ^ s
      else if 2 ^ s < 2 * (n % 2 ^ s) then n / 2 ^ s + 1
      else n / 2 ^ s + n / 2 ^ s % 2 := by
  cases s with
  | zero => simp [nearest, Nat.mod_one]
  | succ s =>
    rw [nearest, if_neg (by omega)]
    simp only [Int.neg_neg, Int.toNat_natCast, twoTo_eq]

theorem div_le_nearest (n s : Nat) : n / 2 ^ s ≤ nearest n (-(s : Int)) := by
  rw [nearest_neg]
  split <;> [skip; split] <;> omega

theorem nearest_le_div (n s : Nat) : nearest n (-(s : Int)) ≤ n / 2 ^ s + 1 := by
  rw [nearest_neg]
  split <;> [skip; split] <;> omega

/-- A multiple of the power is its own nearest one. -/
theorem nearest_mul (n s : Nat) : nearest (n * 2 ^ s) (-(s : Int)) = n := by
  rw [nearest_neg, Nat.mul_mod_left, Nat.mul_div_cancel n (Nat.two_pow_pos s),
    if_pos (Nat.two_pow_pos s)]

/-- A greater number has a nearest quotient that is not smaller. -/
theorem nearest_mono {m n : Nat} (h : m ≤ n) (s : Nat) :
    nearest m (-(s : Int)) ≤ nearest n (-(s : Int)) := by
  have hquotient : m / 2 ^ s ≤ n / 2 ^ s := Nat.div_le_div_right h
  rcases hquotient.lt_or_eq with hlt | heq
  · exact (nearest_le_div m s).trans (hlt.trans_le (div_le_nearest n s))
  · -- the remainders are ordered as the numbers are
    have hm := Nat.div_add_mod m (2 ^ s)
    have hn := Nat.div_add_mod n (2 ^ s)
    rw [heq] at hm
    rw [nearest_neg, nearest_neg, heq]
    split_ifs <;> omega

end Double

/-! ## Rounding to 53 digits -/

/-- The number with its 53 leading binary digits, rounded to the nearest, the even one of two. -/
def roundNat (n : Nat) : Nat :=
  Double.nearest n (-((n.log2 - 52 : Nat) : Int)) * twoTo (n.log2 - 52)

/-- The same on both sides of zero. -/
def roundInt (z : Int) : Int := if z < 0 then -(roundNat z.natAbs : Int) else roundNat z.natAbs

/-- A number of at most 53 digits stays as it is. -/
theorem roundNat_of_log2_le {n : Nat} (h : n.log2 ≤ 52) : roundNat n = n := by
  rw [roundNat, Nat.sub_eq_zero_of_le h, twoTo_zero, Nat.mul_one]
  simpa using Double.nearest_mul n 0

/-- Rounding does not go below the leading digit. -/
theorem le_roundNat {n : Nat} (h : n ≠ 0) : 2 ^ n.log2 ≤ roundNat n := by
  have hquotient : 2 ^ (n.log2 - (n.log2 - 52)) ≤ n / 2 ^ (n.log2 - 52) := by
    rw [Nat.le_div_iff_mul_le (Nat.two_pow_pos _), ← Nat.pow_add,
      Nat.sub_add_cancel (Nat.sub_le _ _)]
    exact Nat.log2_self_le h
  calc 2 ^ n.log2 = 2 ^ (n.log2 - (n.log2 - 52)) * 2 ^ (n.log2 - 52) := by
        rw [← Nat.pow_add, Nat.sub_add_cancel (Nat.sub_le _ _)]
    _ ≤ roundNat n :=
        Nat.mul_le_mul_right _ (hquotient.trans (Double.div_le_nearest n _))

/-- Rounding may carry to the next digit, and no further. -/
theorem roundNat_le (n : Nat) : roundNat n ≤ 2 ^ (n.log2 + 1) := by
  have hquotient : n / 2 ^ (n.log2 - 52) < 2 ^ (n.log2 + 1 - (n.log2 - 52)) := by
    rw [Nat.div_lt_iff_lt_mul (Nat.two_pow_pos _), ← Nat.pow_add, Nat.sub_add_cancel (by omega)]
    exact Nat.lt_log2_self
  calc roundNat n ≤ 2 ^ (n.log2 + 1 - (n.log2 - 52)) * 2 ^ (n.log2 - 52) :=
        Nat.mul_le_mul_right _ ((Double.nearest_le_div n _).trans hquotient)
    _ = 2 ^ (n.log2 + 1) := by rw [← Nat.pow_add, Nat.sub_add_cancel (by omega)]

/-- **Rounding keeps the order.** -/
theorem roundNat_mono {m n : Nat} (h : m ≤ n) : roundNat m ≤ roundNat n := by
  rcases Nat.eq_zero_or_pos m with rfl | hm
  · exact (roundNat_of_log2_le (by simp)).trans_le (Nat.zero_le _)
  have hn : n ≠ 0 := by omega
  have hlog : m.log2 ≤ n.log2 := (Nat.le_log2 hn).2 ((Nat.log2_self_le (by omega)).trans h)
  rcases hlog.lt_or_eq with hlt | heq
  · calc roundNat m ≤ 2 ^ (m.log2 + 1) := roundNat_le m
      _ ≤ 2 ^ n.log2 := Nat.pow_le_pow_right (by decide) hlt
      _ ≤ roundNat n := le_roundNat hn
  · rw [roundNat, roundNat, heq]
    exact Nat.mul_le_mul_right _ (Double.nearest_mono h _)

theorem roundInt_mono {a b : Int} (h : a ≤ b) : roundInt a ≤ roundInt b := by
  rw [roundInt, roundInt]
  split_ifs with ha hb hb
  · have := roundNat_mono (m := b.natAbs) (n := a.natAbs) (by omega)
    omega
  · omega
  · omega
  · have := roundNat_mono (m := a.natAbs) (n := b.natAbs) (by omega)
    omega

/-- **No number up to `2 ^ 53` is changed.** -/
theorem roundInt_of_natAbs_le {z : Int} (h : z.natAbs ≤ 2 ^ 53) : roundInt z = z := by
  have hround : roundNat z.natAbs = z.natAbs := by
    rcases h.lt_or_eq with hlt | heq
    · refine roundNat_of_log2_le ?_
      by_cases hz : z.natAbs = 0
      · simp [hz]
      · exact Nat.le_of_lt_succ ((Nat.log2_lt hz).2 hlt)
    · rw [heq]
      decide +kernel
  rw [roundInt, hround]
  split <;> omega

end Dossier.Number
