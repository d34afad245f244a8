import Dossier.Proofs.Binding.Accepted
import Dossier.Proofs.Number.Ordered
import Dossier.Proofs.Run.Ends

/-!
# Comparing whole numbers

Two whole numbers are equal if they are the same, but they are ordered as doubles, each of which
holds 53 binary digits of its number.

* `ComparesExactly` says that the operators treat two numbers as the integers that they are.
* `compares_rounded` is the result: an order operator compares the numbers as they are after rounding.
  This is exact for all numbers up to `2 ^ 53`, and beyond for those that rounding keeps apart.
* `scaleUnit_takes_for_equal` shows a method for which it is not.
-/

set_option autoImplicit false

namespace Dossier.Script

open Number

/-- Does the operator say yes to two whole numbers? -/
def BinaryOp.accepts (op : BinaryOp) (a b : Int64) : Bool :=
  match op.apply (.int a) (.int b) with
  | .ok (.bool t) => t
  | _ => false

/-- The operators treat the numbers as the integers that they are. -/
structure ComparesExactly (a b : Int64) : Prop where
  lt : BinaryOp.apply .lt (.int a) (.int b) = .ok (.bool (decide (a.toInt < b.toInt)))
  le : BinaryOp.apply .le (.int a) (.int b) = .ok (.bool (decide (a.toInt ≤ b.toInt)))
  gt : BinaryOp.apply .gt (.int a) (.int b) = .ok (.bool (decide (b.toInt < a.toInt)))
  ge : BinaryOp.apply .ge (.int a) (.int b) = .ok (.bool (decide (b.toInt ≤ a.toInt)))
  /-- Of the three, one is true. -/
  one : [BinaryOp.lt, .eq, .gt].countP (fun op ↦ op.accepts a b) = 1
  /-- They are equal if neither is the greater one. -/
  both : (BinaryOp.accepts .le a b && BinaryOp.accepts .ge a b) = BinaryOp.accepts .eq a b

/-- What the operators make of two whole numbers, which they order after rounding. -/
structure ComparesRounded (a b : Int64) : Prop where
  lt : BinaryOp.apply .lt (.int a) (.int b) =
    .ok (.bool (decide (roundInt a.toInt < roundInt b.toInt)))
  le : BinaryOp.apply .le (.int a) (.int b) =
    .ok (.bool (decide (roundInt a.toInt ≤ roundInt b.toInt)))
  gt : BinaryOp.apply .gt (.int a) (.int b) =
    .ok (.bool (decide (roundInt b.toInt < roundInt a.toInt)))
  ge : BinaryOp.apply .ge (.int a) (.int b) =
    .ok (.bool (decide (roundInt b.toInt ≤ roundInt a.toInt)))
  /-- Equality does not round. -/
  eq : BinaryOp.apply .eq (.int a) (.int b) = .ok (.bool (decide (a.toInt = b.toInt)))

theorem ok_bool_congr {s t : Prop} [Decidable s] [Decidable t] (h : s ↔ t) :
    (.ok (.bool (decide s)) : Except Fault Value) = .ok (.bool (decide t)) := by
  rw [decide_eq_decide.2 h]

/-- **The operators order whole numbers as they are after rounding.** -/
theorem comparesRounded (a b : Int64) : ComparesRounded a b := by
  have ha := represents_floatOfInt a
  have hb := represents_floatOfInt b
  exact {
    lt := ok_bool_congr (ha.lt_iff hb)
    le := ok_bool_congr (ha.le_iff hb)
    gt := ok_bool_congr (hb.lt_iff ha)
    ge := ok_bool_congr (hb.le_iff ha)
    eq := ok_bool_congr Int64.toInt_inj.symm }

/-- Numbers that rounding keeps apart are in the order that they are in after it. -/
theorem roundInt_lt_iff {a b : Int} (h : a = b ∨ roundInt a ≠ roundInt b) :
    roundInt a < roundInt b ↔ a < b := by
  constructor
  · intro hlt
    by_contra hle
    exact absurd hlt (Int.not_lt.2 (roundInt_mono (Int.not_lt.1 hle)))
  · intro hlt
    have hne : roundInt a ≠ roundInt b := h.resolve_left (Int.ne_of_lt hlt)
    exact Int.lt_iff_le_and_ne.2 ⟨roundInt_mono (Int.le_of_lt hlt), hne⟩

namespace ComparesRounded

variable {a b : Int64}

/-- **The order is exact if rounding keeps the numbers apart.** -/
theorem exact (h : ComparesRounded a b)
    (hapart : a.toInt = b.toInt ∨ roundInt a.toInt ≠ roundInt b.toInt) : ComparesExactly a b := by
  have hlt := roundInt_lt_iff hapart
  have hgt := roundInt_lt_iff (hapart.imp Eq.symm Ne.symm)
  have hle : roundInt a.toInt ≤ roundInt b.toInt ↔ a.toInt ≤ b.toInt := by
    rw [← Int.not_lt, ← Int.not_lt, hgt]
  have hge : roundInt b.toInt ≤ roundInt a.toInt ↔ b.toInt ≤ a.toInt := by
    rw [← Int.not_lt, ← Int.not_lt, hlt]
  have heq := h.eq
  obtain ⟨lt, le, gt, ge, -⟩ := h
  rw [ok_bool_congr hlt] at lt
  rw [ok_bool_congr hle] at le
  rw [ok_bool_congr hgt] at gt
  rw [ok_bool_congr hge] at ge
  refine ⟨lt, le, gt, ge, ?_, ?_⟩
  · simp only [List.countP_cons, List.countP_nil, BinaryOp.accepts, lt, heq, gt, decide_eq_true_iff]
    split_ifs <;> omega
  · simp only [BinaryOp.accepts, le, heq, ge, ← Bool.decide_and]
    exact decide_eq_decide.2 (by omega)

/-- **It is not if rounding makes them equal.** -/
theorem not_exact (h : ComparesRounded a b) (hne : a.toInt ≠ b.toInt)
    (hround : roundInt a.toInt = roundInt b.toInt) : ¬ ComparesExactly a b := by
  intro hexact
  have hboth := hexact.both
  simp [BinaryOp.accepts, h.le, h.ge, h.eq, hround, hne] at hboth

end ComparesRounded

/-- **Whole numbers are ordered after rounding to 53 digits.**  The operators are right about two
numbers exactly if these are the same or rounding keeps them apart, which it does with all numbers up
to `2 ^ 53`. -/
theorem compares_rounded (a b : Int64) :
    ComparesRounded a b ∧
    (ComparesExactly a b ↔ a.toInt = b.toInt ∨ roundInt a.toInt ≠ roundInt b.toInt) ∧
    (a.toInt.natAbs ≤ 2 ^ 53 ∧ b.toInt.natAbs ≤ 2 ^ 53 → ComparesExactly a b) := by
  have hrounded := comparesRounded a b
  refine ⟨hrounded, ⟨fun hexact ↦ ?_, hrounded.exact⟩, fun ⟨ha, hb⟩ ↦ hrounded.exact ?_⟩
  · by_contra hapart
    obtain ⟨hne, hround⟩ := not_or.1 hapart
    exact hrounded.not_exact hne (not_not.1 hround) hexact
  · rw [roundInt_of_natAbs_le ha, roundInt_of_natAbs_le hb]
    exact eq_or_ne _ _

/-- At the limit the operators are still right. -/
theorem compares_rounded_at_limit :
    (Int64.toInt 9007199254740992).natAbs ≤ 2 ^ 53 ∧
    (Int64.toInt (-9007199254740991)).natAbs ≤ 2 ^ 53 ∧
    ComparesExactly 9007199254740992 (-9007199254740991) :=
  ⟨by decide, by decide, (compares_rounded _ _).2.2 ⟨by decide, by decide⟩⟩

/-- A method that compares the first number that no double holds with the one before it. -/
def scaleUnit : CompileUnit :=
  ⟨[⟨"Acme", [], [⟨"Widget", .everyone, false,
    [⟨"Main", .everyone, true, "int", [],
      "if (9007199254740993 > 9007199254740992) { return 1; } return 0;"⟩]⟩]⟩]⟩

/-- **The scale takes the numbers for equal**, although they are not. -/
theorem scaleUnit_takes_for_equal : ¬ ComparesExactly 9007199254740993 9007199254740992 ∧
    ∃ p, bind scaleUnit [] = .ok p ∧
      ∃ w, callMethod ampleFuel p 0 0 .null [] .fresh = .ok (.int 0) w := by
  refine ⟨fun hexact ↦ ?_, _, bind_of_clean (by decide +kernel), ?_⟩
  · exact (comparesRounded _ _).not_exact (by decide) (by decide +kernel) hexact
  · exact exists_of_givesInt (by decide +kernel)

end Dossier.Script
