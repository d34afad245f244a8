import Dossier.Proofs.Number.Numerals
import Dossier.Proofs.Text.Blanks
import Dossier.Script.Library

/-!
# Converting numbers and their texts

A whole number has 64 bits, and so it is converted to an integer as it is.  A text is converted if it
stands for a number of 32 bits.

* `ConvertsAlike` says of a number that converting it, and converting its text with blanks around it,
  come to the same.
* `toInteger_text` says what becomes of the text: blanks are trimmed, and of what is left the number
  is read if it is in the range.
* `converts_alike_iff` is the result: this is so exactly for the numbers of 32 bits.
-/

set_option autoImplicit false

namespace Dossier.Script

open Text (AllBlank isBlank isPlainDigit)
open LibraryMethod (convertToString convertToInt32)

/-- Both have the same whole number, or both fail. -/
def SameInteger (r s : Except Fault Value) : Prop :=
  (∃ k, r = .ok (.int k) ∧ s = .ok (.int k)) ∨ ∃ f g, r = .error f ∧ s = .error g

/-- Converting the number, and converting its text with other texts around it, come to the same. -/
def ConvertsAlike (n : Int64) (before behind : String) : Prop :=
  ∃ text r s, convertToString.apply [.int n] = some ⟨"", .ok (.string text)⟩ ∧
    convertToInt32.apply [.int n] = some ⟨"", r⟩ ∧
    convertToInt32.apply [.string (before ++ text ++ behind)] = some ⟨"", s⟩ ∧
    SameInteger r s

/-! ## The text of a number -/

/-- What is written for a number has no blank at its ends. -/
theorem exists_ends_intText (n : Int) : ∃ c d cs ds, (Number.intText n).toList = c :: cs ∧
    c :: cs = ds ++ [d] ∧ isBlank c = false ∧ isBlank d = false := by
  have hnumeral := Number.numeral_digitsOf n.natAbs
  obtain ⟨c, cs, hcs, hc⟩ := hnumeral.exists_cons
  have hdigit {c : Char} (hc : isPlainDigit c = true) : isBlank c = false :=
    Text.isBlank_of_isNameChar (Text.isNameChar_of_isPlainDigit hc)
  have hd := hdigit (hnumeral.digits _ (List.getLast_mem hnumeral.ne_nil))
  have hlast := (List.dropLast_concat_getLast hnumeral.ne_nil).symm
  rw [Number.toList_intText]
  split
  · exact ⟨'-', _, _, '-' :: _, rfl, congrArg ('-' :: ·) hlast, rfl, hd⟩
  · exact ⟨c, _, cs, _, hcs, hcs.symm.trans hlast, hdigit hc, hd⟩

/-- Blanks around the text of a number are trimmed. -/
theorem trim_intText (n : Int) {before behind : String} (hbefore : AllBlank before.toList)
    (hbehind : AllBlank behind.toList) :
    Text.trim (before ++ Number.intText n ++ behind) = Number.intText n := by
  obtain ⟨c, d, cs, ds, htext, hlast, hc, hd⟩ := exists_ends_intText n
  have htrim := Text.trim_append hbefore hbehind hlast hc hd
  simpa only [← htext, String.ofList_append, String.ofList_toList, ← String.append_assoc] using htrim

/-- **The text of a number is converted** if the number has 32 bits. -/
theorem toInteger_text (n : Int64) {before behind : String} (hbefore : AllBlank before.toList)
    (hbehind : AllBlank behind.toList) :
    LibraryMethod.toInteger (.string (before ++ (Value.int n).text ++ behind)) =
      if -Number.twoTo 31 ≤ n.toInt ∧ n.toInt < Number.twoTo 31 then .ok (.int n)
      else .error .notInteger := by
  have hread := Number.int?_intText (-Number.twoTo 31) (Number.twoTo 31 - 1) n.toInt
  rw [LibraryMethod.toInteger, Value.text, trim_intText n.toInt hbefore hbehind, hread]
  have hrange : (-(Number.twoTo 31 : Int) ≤ n.toInt ∧ n.toInt ≤ (Number.twoTo 31 : Int) - 1) ↔
      -Number.twoTo 31 ≤ n.toInt ∧ n.toInt < Number.twoTo 31 :=
    and_congr Iff.rfl Int.le_sub_one_iff
  by_cases h : -Number.twoTo 31 ≤ n.toInt ∧ n.toInt < Number.twoTo 31
  · rw [if_pos (hrange.2 h), if_pos h]
    dsimp only
    rw [Int64.ofInt_toInt]
  · rw [if_neg (mt hrange.1 h), if_neg h]

/-! ## The two conversions -/

theorem apply_convertToInt32 (v : Value) :
    convertToInt32.apply [v] = some ⟨"", LibraryMethod.toInteger v⟩ := rfl

theorem apply_convertToString (v : Value) :
    convertToString.apply [v] = some ⟨"", .ok (.string v.text)⟩ := rfl

/-- The number and its text come to the same exactly if the text is converted at all. -/
theorem convertsAlike_iff (n : Int64) (before behind : String) :
    ConvertsAlike n before behind ↔
      LibraryMethod.toInteger (.string (before ++ (Value.int n).text ++ behind)) =
        .ok (.int n) := by
  constructor
  · rintro ⟨text, r, s, htext, hr, hs, hsame⟩
    rw [apply_convertToString, Option.some.injEq, Effect.mk.injEq] at htext
    rw [apply_convertToInt32, Option.some.injEq, Effect.mk.injEq] at hr hs
    obtain ⟨-, rfl⟩ := hr
    obtain ⟨-, rfl⟩ := hs
    obtain rfl := Value.string.inj (Except.ok.inj htext.2)
    rcases hsame with ⟨k, hk, hs⟩ | ⟨f, g, hf, -⟩
    · obtain rfl := Value.int.inj (Except.ok.inj hk)
      exact hs
    · cases hf
  · intro h
    exact ⟨_, _, _, apply_convertToString _, apply_convertToInt32 _, apply_convertToInt32 _,
      .inl ⟨n, rfl, h⟩⟩

/-- **Numbers of 32 bits are converted like their texts**, and others are not.  A number is converted
as it is; its text, with any blanks around it, is converted to the same number if that has 32 bits,
and refused otherwise. -/
theorem converts_alike_iff (n : Int64) {before behind : String} (hbefore : AllBlank before.toList)
    (hbehind : AllBlank behind.toList) :
    (ConvertsAlike n before behind ↔ -Number.twoTo 31 ≤ n.toInt ∧ n.toInt < Number.twoTo 31) ∧
    convertToInt32.apply [.int n] = some ⟨"", .ok (.int n)⟩ ∧
    convertToInt32.apply [.string (before ++ (Value.int n).text ++ behind)] =
      some ⟨"", if -Number.twoTo 31 ≤ n.toInt ∧ n.toInt < Number.twoTo 31 then .ok (.int n)
        else .error .notInteger⟩ := by
  have htext := toInteger_text n hbefore hbehind
  refine ⟨?_, apply_convertToInt32 _, by rw [apply_convertToInt32, htext]⟩
  rw [convertsAlike_iff, htext]
  split
  · rename_i hrange
    exact iff_of_true rfl hrange
  · rename_i hrange
    exact iff_of_false nofun hrange

/-- The least number of 32 bits is converted like its text. -/
theorem converts_alike_at_least :
    AllBlank " \n".toList ∧ AllBlank "\t\u3000".toList ∧
      ConvertsAlike (-2147483648) " \n" "\t\u3000" := by
  have hbefore : AllBlank " \n".toList := List.all_eq_true.1 (by decide +kernel)
  have hbehind : AllBlank "\t\u3000".toList := List.all_eq_true.1 (by decide +kernel)
  exact ⟨hbefore, hbehind, (converts_alike_iff (-2147483648) hbefore hbehind).1.2 (by decide)⟩

/-- **The next number above is not**: its text is refused. -/
theorem converts_apart_above :
    convertToInt32.apply [.int 2147483648] = some ⟨"", .ok (.int 2147483648)⟩ ∧
    convertToInt32.apply [.string "2147483648"] = some ⟨"", .error .notInteger⟩ ∧
    ¬ ConvertsAlike 2147483648 "" "" := by
  have hnone : AllBlank "".toList := fun c hc ↦ by simp at hc
  have hwritten : "" ++ (Value.int 2147483648).text ++ "" = "2147483648" := by decide +kernel
  have htext := toInteger_text 2147483648 hnone hnone
  rw [if_neg (by decide), hwritten] at htext
  refine ⟨apply_convertToInt32 _, by rw [apply_convertToInt32, htext], ?_⟩
  rw [convertsAlike_iff, hwritten, htext]
  exact nofun

end Dossier.Script
