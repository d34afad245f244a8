import Dossier.Number.Decimal

/-!
# Numerals that are read back

Every whole number is the value of its digits (`numeral_digitsOf`), and what `intText` writes is
read by `int?` as the number that was written, within whatever range is asked for
(`int?_intText`).

`Numeral cs n` is what there is to know of a row of digits: there is one at least, all of them are
plain, and their value is `n`.
-/

set_option autoImplicit false

namespace Dossier.Number

open Text (isPlainDigit)

/-- The characters are the digits of the number, perhaps with zeros in front. -/
structure Numeral (cs : List Char) (n : Nat) : Prop where
  ne_nil : cs ≠ []
  digits : ∀ c ∈ cs, isPlainDigit c = true
  value : natOfDigits cs = n

theorem digitChar_spec {n : Nat} (h : n < 10) :
    isPlainDigit (digitChar n) = true ∧ digitValue (digitChar n) = n := by
  have hall : ∀ k < 10, isPlainDigit (digitChar k) = true ∧ digitValue (digitChar k) = k := by
    decide
  exact hall n h

namespace Numeral

variable {cs : List Char} {n : Nat}

theorem single (h : n < 10) : Numeral [digitChar n] n := by
  obtain ⟨hdigit, hvalue⟩ := digitChar_spec h
  exact ⟨List.cons_ne_nil _ _, by simpa using hdigit, by simp [natOfDigits, hvalue]⟩

/-- One more digit at the end. -/
theorem concat (h : Numeral cs (n / 10)) : Numeral (cs ++ [digitChar (n % 10)]) n := by
  obtain ⟨hdigit, hvalue⟩ := digitChar_spec (Nat.mod_lt n (by decide))
  refine ⟨by simp, ?_, ?_⟩
  · intro c hc
    rcases List.mem_append.1 hc with hc | hc
    · exact h.digits c hc
    · rwa [List.mem_singleton.1 hc]
  · have hcs := h.value
    rw [natOfDigits] at hcs
    rw [natOfDigits, List.foldl_append, hcs, List.foldl_cons, List.foldl_nil, hvalue]
    exact Nat.div_add_mod n 10

theorem nat?_eq (h : Numeral cs n) : nat? cs = some n := by
  have hall : cs.all isPlainDigit = true := List.all_eq_true.2 h.digits
  rw [nat?, hall, List.isEmpty_eq_false_iff.2 h.ne_nil, h.value]
  rfl

/-- A numeral starts with a digit, and so with no sign. -/
theorem exists_cons (h : Numeral cs n) : ∃ c rest, cs = c :: rest ∧ isPlainDigit c = true := by
  obtain ⟨c, rest, rfl⟩ := List.exists_cons_of_ne_nil h.ne_nil
  exact ⟨c, rest, rfl, h.digits c (List.mem_cons_self ..)⟩

end Numeral

/-- The digits in front of others are a numeral, if there is fuel for all of them. -/
theorem digitsBefore_eq (fuel n : Nat) (rest : List Char) (h : n < tenTo fuel) (hfuel : 0 < fuel) :
    ∃ cs, digitsBefore fuel n rest = cs ++ rest ∧ Numeral cs n := by
  induction fuel generalizing n rest with
  | zero => exact absurd hfuel (Nat.lt_irrefl 0)
  | succ fuel ih =>
    rw [digitsBefore]
    by_cases hn : n < 10
    · rw [if_pos hn]
      exact ⟨[digitChar n], rfl, .single hn⟩
    · rw [if_neg hn]
      have hpos : 0 < fuel := by
        rcases Nat.eq_zero_or_pos fuel with rfl | hpos
        · exact absurd h hn
        · exact hpos
      obtain ⟨cs, hcs, hnumeral⟩ :=
        ih (n / 10) (digitChar (n % 10) :: rest) (by rw [tenTo_succ] at h; omega) hpos
      exact ⟨cs ++ [digitChar (n % 10)], by simp [hcs], hnumeral.concat⟩

/-- **The digits of a number are a numeral of it.** -/
theorem numeral_digitsOf (n : Nat) : Numeral (digitsOf n) n := by
  have hfuel : n < tenTo (n.log2 + 1) :=
    Nat.lt_of_lt_of_le Nat.lt_log2_self (Nat.pow_le_pow_left (by decide) _)
  obtain ⟨cs, hcs, hnumeral⟩ := digitsBefore_eq (n.log2 + 1) n [] hfuel (Nat.succ_pos _)
  rw [digitsOf, hcs, List.append_nil]
  exact hnumeral

/-- What is written for a number: its digits, after a minus sign if it is negative. -/
theorem toList_intText (n : Int) :
    (intText n).toList = if n < 0 then '-' :: digitsOf n.natAbs else digitsOf n.natAbs := by
  rw [intText]
  split
  · simp only [String.toList_append, String.toList_ofList]
    rfl
  · rw [String.toList_ofList]

namespace Numeral

variable {cs : List Char} {n : Nat} (low high : Int)

theorem int?_neg (h : Numeral cs n) :
    int? low high ('-' :: cs) = (some (-(n : Int))).filter
      fun n ↦ decide (low ≤ n) && decide (n ≤ high) := by
  simp [int?, h.nat?_eq]

theorem int?_eq (h : Numeral cs n) :
    int? low high cs = (some (n : Int)).filter
      fun n ↦ decide (low ≤ n) && decide (n ≤ high) := by
  obtain ⟨c, rest, rfl, hc⟩ := h.exists_cons
  have hvalue := h.nat?_eq
  -- a digit is no sign
  have hminus : c ≠ '-' := by
    rintro rfl
    cases hc
  have hplus : c ≠ '+' := by
    rintro rfl
    cases hc
  unfold int?
  split
  · rename_i heq
    exact absurd (List.cons.inj heq).1 hminus
  · rename_i heq
    exact absurd (List.cons.inj heq).1 hplus
  · simp [hvalue]

end Numeral

/-- **What is written for a number is read back**, if the number is in the range. -/
theorem int?_intText (low high n : Int) :
    int? low high (intText n).toList = if low ≤ n ∧ n ≤ high then some n else none := by
  have hnumeral := numeral_digitsOf n.natAbs
  have hvalue : int? low high (intText n).toList =
      (some n).filter fun n ↦ decide (low ≤ n) && decide (n ≤ high) := by
    rw [toList_intText]
    split
    · rename_i hn
      rw [hnumeral.int?_neg, Int.ofNat_natAbs_of_nonpos (Int.le_of_lt hn), Int.neg_neg]
    · rename_i hn
      rw [hnumeral.int?_eq, Int.natAbs_of_nonneg (Int.not_lt.1 hn)]
  rw [hvalue, Option.filter_some]
  simp only [Bool.and_eq_true, decide_eq_true_eq]

end Dossier.Number
