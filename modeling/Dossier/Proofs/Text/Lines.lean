import Dossier.Proofs.Text.Places
import Dossier.Text.Line
import Mathlib.Data.List.DropRight

/-!
# Lines and columns

A `Position` is counted from one character to the next.  Where this leads can be told from the text in
front of it: the line is one more than the line feeds in it, and the column one more than what stands
behind the last of them (`lineCol_append`).  The piece of the text with this number is the line around
the position (`getElem?_splitOn`).
-/

set_option autoImplicit false

namespace Dossier.Text

theorem splitOn_self (sep : Char) (cs : List Char) :
    splitOn sep (sep :: cs) = [] :: splitOn sep cs := by
  obtain ⟨piece, pieces, h⟩ := List.exists_cons_of_ne_nil (splitOn_ne_nil sep cs)
  rw [splitOn, h]
  exact if_pos rfl

/-- The first piece is what stands in front of a separator, and another character belongs to it. -/
theorem splitOn_eq_cons (sep : Char) (cs : List Char) :
    splitOn sep cs = cs.takeWhile (· != sep) :: (splitOn sep cs).tail := by
  induction cs with
  | nil => rfl
  | cons c cs ih =>
    by_cases hc : c = sep
    · subst hc
      rw [splitOn_self, List.takeWhile_cons_of_neg (by simp), List.tail_cons]
    · rw [splitOn, ih, List.takeWhile_cons_of_pos (by simpa using hc)]
      simp only [if_neg hc, List.tail_cons]

theorem tail_splitOn_cons {sep c : Char} (hc : c ≠ sep) (cs : List Char) :
    (splitOn sep (c :: cs)).tail = (splitOn sep cs).tail := by
  rw [splitOn, splitOn_eq_cons sep cs]
  simp only [if_neg hc, List.tail_cons]

/-- Behind as many pieces as there are separators in the first part comes the piece around its end. -/
theorem drop_splitOn (sep : Char) (before behind : List Char) :
    (splitOn sep (before ++ behind)).drop (before.count sep) =
      (before.rtakeWhile (· != sep) ++ behind.takeWhile (· != sep)) :: (splitOn sep behind).tail := by
  induction before using List.reverseRecOn generalizing behind with
  | nil => exact splitOn_eq_cons sep behind
  | append_singleton before c ih =>
    have hc := ih (c :: behind)
    rw [List.append_assoc, List.singleton_append, List.count_append, List.rtakeWhile_concat]
    by_cases hsep : c = sep
    · subst hsep
      rw [List.count_singleton_self, ← List.drop_drop, hc, splitOn_self]
      simpa using splitOn_eq_cons c behind
    · rw [List.takeWhile_cons_of_pos (by simpa using hsep), tail_splitOn_cons hsep] at hc
      simpa [hsep] using hc

/-- **The line around a place**, by its number. -/
theorem getElem?_splitOn (sep : Char) (before behind : List Char) :
    (splitOn sep (before ++ behind))[before.count sep]? =
      some (before.rtakeWhile (· != sep) ++ behind.takeWhile (· != sep)) := by
  rw [← List.head?_drop, drop_splitOn, List.head?_cons]

/-- Counting the characters of a text. -/
theorem foldl_next (before : List Char) : before.foldl Position.next Position.first =
    ⟨before.count '\n' + 1, (before.rtakeWhile (· != '\n')).length + 1⟩ := by
  induction before using List.reverseRecOn with
  | nil => rfl
  | append_singleton before c ih =>
    rw [List.foldl_append, ih, List.count_append, List.rtakeWhile_concat]
    by_cases hc : c = '\n'
    · subst hc
      rfl
    · simp [Position.next, hc]

/-- **The line and column of the end of a part.** -/
theorem lineCol_append {source : String} {before behind : List Char}
    (h : source.toList = before ++ behind) : lineCol source (byteLength before) =
      ⟨before.count '\n' + 1, (before.rtakeWhile (· != '\n')).length + 1⟩ := by
  rw [lineCol, h, takeBytes_append, foldl_next]

end Dossier.Text
