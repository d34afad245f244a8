import Dossier.Text.Blank
import Dossier.Text.Letter
import Mathlib.Data.List.DropRight

/-!
# Blanks at the ends of a text

What trimming takes off, and what it leaves.

* A text is what `dropEndBlanks` leaves of it, and blanks (`exists_blanks`).
* Blanks that are put around a text which has none at its ends are taken off again (`trim_append`),
  and what trimming leaves has none there (`trim_trim`).
* No character of a name is a blank (`isNameChar_of_isBlank`), so that a text that ends with a name or
  a digit has no blank at its end.
-/

set_option autoImplicit false

namespace Dossier.Text

/-- The text is nothing but blanks. -/
def AllBlank (cs : List Char) : Prop := ∀ c ∈ cs, isBlank c = true

theorem AllBlank.notMem {cs : List Char} (h : AllBlank cs) {c : Char} (hc : isBlank c = false) :
    c ∉ cs := by
  intro hmem
  rw [h c hmem] at hc
  cases hc

/-! ## Trimming -/

theorem dropBlanks_append {blanks : List Char} (h : AllBlank blanks) (cs : List Char) :
    dropBlanks (blanks ++ cs) = dropBlanks cs := by
  rw [dropBlanks, List.dropWhile_append_of_pos h, dropBlanks]

theorem dropBlanks_cons {c : Char} (h : isBlank c = false) (cs : List Char) :
    dropBlanks (c :: cs) = c :: cs :=
  List.dropWhile_cons_of_neg (by simp [h])

theorem dropEndBlanks_append {blanks : List Char} (h : AllBlank blanks) (cs : List Char) :
    dropEndBlanks (cs ++ blanks) = dropEndBlanks cs := by
  have hreverse : AllBlank blanks.reverse := fun c hc ↦ h c (List.mem_reverse.1 hc)
  rw [dropEndBlanks, List.reverse_append, dropBlanks_append hreverse, dropEndBlanks]

theorem dropEndBlanks_concat {c : Char} (h : isBlank c = false) (cs : List Char) :
    dropEndBlanks (cs ++ [c]) = cs ++ [c] := by
  rw [dropEndBlanks, List.reverse_concat, dropBlanks_cons h, ← List.reverse_concat,
    List.reverse_reverse]

/-- **What is taken off the end of a text is blank.** -/
theorem exists_blanks (cs : List Char) :
    ∃ blanks, cs = dropEndBlanks cs ++ blanks ∧ AllBlank blanks := by
  have hsplit : cs.reverse.takeWhile isBlank ++ cs.reverse.dropWhile isBlank = cs.reverse :=
    List.takeWhile_append_dropWhile
  refine ⟨(cs.reverse.takeWhile isBlank).reverse, ?_, fun c hc ↦ ?_⟩
  · rw [dropEndBlanks, dropBlanks, ← List.reverse_append, hsplit, List.reverse_reverse]
  · exact List.all_eq_true.1 List.all_takeWhile c (List.mem_reverse.1 hc)

/-- **Blanks around a text are taken off**, and nothing else. -/
theorem trim_append {before behind : List Char} (hbefore : AllBlank before)
    (hbehind : AllBlank behind) {c d : Char} {cs ds : List Char} (hcs : c :: cs = ds ++ [d])
    (hc : isBlank c = false) (hd : isBlank d = false) :
    trim (String.ofList (before ++ (c :: cs ++ behind))) = String.ofList (c :: cs) := by
  rw [trim, String.toList_ofList, dropBlanks_append hbefore, List.cons_append, dropBlanks_cons hc,
    ← List.cons_append, dropEndBlanks_append hbehind, hcs, dropEndBlanks_concat hd]

theorem dropEndBlanks_eq (cs : List Char) : dropEndBlanks cs = cs.rdropWhile isBlank := rfl

/-- What is left has no blank in front of it if the whole had none. -/
theorem dropBlanks_dropEndBlanks {cs : List Char} (h : dropBlanks cs = cs) :
    dropBlanks (dropEndBlanks cs) = dropEndBlanks cs := by
  rw [dropBlanks, List.dropWhile_eq_self_iff] at h ⊢
  intro hpos
  have hfront : dropEndBlanks cs <+: cs := List.rdropWhile_prefix _ _
  rw [hfront.getElem]
  exact h (Nat.lt_of_lt_of_le hpos hfront.length_le)

/-- **A trimmed text has no blanks at its ends.** -/
theorem trim_trim (s : String) : trim (trim s) = trim s := by
  have hfirst : dropBlanks (dropBlanks s.toList) = dropBlanks s.toList :=
    List.dropWhile_idempotent _ _
  rw [trim, trim, String.toList_ofList, dropBlanks_dropEndBlanks hfirst, dropEndBlanks_eq,
    dropEndBlanks_eq, List.rdropWhile_idempotent]

/-- Trimming leaves nothing exactly if there is nothing but blanks. -/
theorem trim_eq_empty_iff {s : String} : trim s = "" ↔ AllBlank s.toList := by
  rw [trim, String.ofList_eq_empty_iff, dropEndBlanks_eq, List.rdropWhile_eq_nil_iff]
  constructor
  · intro h c hc
    have hsplit : s.toList.takeWhile isBlank ++ dropBlanks s.toList = s.toList :=
      List.takeWhile_append_dropWhile
    rw [← hsplit] at hc
    rcases List.mem_append.1 hc with hc | hc
    · exact List.all_eq_true.1 List.all_takeWhile c hc
    · exact h c hc
  · exact fun h c hc ↦ h c (List.dropWhile_subset _ hc)

/-! ## Characters that are no blanks -/

/-- The numbers of the blanks. -/
def blankNumbers : List Nat :=
  List.range' 9 5 ++ [0x20, 0x85, 0xA0, 0x1680] ++ List.range' 0x2000 11 ++
    [0x2028, 0x2029, 0x202F, 0x205F, 0x3000]

theorem toNat_mem_of_isBlank {c : Char} (h : isBlank c = true) : c.toNat ∈ blankNumbers := by
  simp only [isBlank, Bool.or_eq_true, Bool.and_eq_true, decide_eq_true_eq, beq_iff_eq] at h
  simp only [blankNumbers, List.mem_append, List.mem_range'_1, List.mem_cons, List.not_mem_nil,
    or_false, Nat.lt_succ_iff, Nat.reduceAdd]
  simpa only [or_assoc] using h

/-- **No character of a name is a blank.** -/
theorem isNameChar_of_isBlank {c : Char} (h : isBlank c = true) : isNameChar c = false := by
  have hall : ∀ n ∈ blankNumbers, isNameChar (Char.ofNat n) = false := by decide +kernel
  have hc := hall c.toNat (toNat_mem_of_isBlank h)
  rwa [Char.ofNat_toNat] at hc

theorem isBlank_of_isNameChar {c : Char} (h : isNameChar c = true) : isBlank c = false := by
  rw [Bool.eq_false_iff]
  intro hblank
  rw [isNameChar_of_isBlank hblank] at h
  cases h

/-- A plain digit can stand in a name. -/
theorem isNameChar_of_isPlainDigit {c : Char} (h : isPlainDigit c = true) :
    isNameChar c = true := by
  have hlow : c.toNat < 128 := by
    rw [isPlainDigit, Bool.and_eq_true, decide_eq_true_eq, decide_eq_true_eq] at h
    exact Nat.lt_of_le_of_lt h.2 (by decide)
  rw [isNameChar, isNumeric, if_pos hlow, h]
  simp

theorem isPlainDigit_of_isBlank {c : Char} (h : isBlank c = true) : isPlainDigit c = false := by
  have hname := isNameChar_of_isBlank h
  rw [Bool.eq_false_iff] at hname ⊢
  exact mt isNameChar_of_isPlainDigit hname

end Dossier.Text
