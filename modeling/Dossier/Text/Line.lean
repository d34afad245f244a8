/-!
# Pieces of a text

Cutting a text at a separator, putting pieces together again, and the lines of a text.

* `splitOn` gives one piece more than there are separators, so that joining the pieces with the
  separator gives the text back — `joinWith_splitOn`.
* `lines` cuts after every line feed; a last line that is empty is no line, and a carriage return
  just before a line feed belongs to the line break.
-/

set_option autoImplicit false

namespace Dossier.Text

/-! ## Separators -/

/-- The pieces of the text between the separators. -/
def splitOn (sep : Char) : List Char → List (List Char)
  | [] => [[]]
  | c :: cs =>
    match splitOn sep cs with
    | [] => [[c]]
    | piece :: pieces => if c = sep then [] :: piece :: pieces else (c :: piece) :: pieces

/-- The pieces with a separator between any two. -/
def joinWith (sep : Char) : List (List Char) → List Char
  | [] => []
  | [piece] => piece
  | piece :: next :: pieces => piece ++ sep :: joinWith sep (next :: pieces)

theorem splitOn_ne_nil (sep : Char) (cs : List Char) : splitOn sep cs ≠ [] := by
  cases cs with
  | nil => simp [splitOn]
  | cons c cs =>
    rw [splitOn]
    split
    · simp
    · split <;> simp

theorem joinWith_splitOn (sep : Char) (cs : List Char) : joinWith sep (splitOn sep cs) = cs := by
  induction cs with
  | nil => rfl
  | cons c cs ih =>
    rw [splitOn]
    split
    · next h => exact absurd h (splitOn_ne_nil sep cs)
    · next piece pieces h =>
      rw [h] at ih
      split
      · next hc => subst hc; simp [joinWith, ih]
      · cases pieces with
        | nil => rw [joinWith] at ih ⊢; rw [ih]
        | cons next pieces => rw [joinWith] at ih ⊢; rw [List.cons_append, ih]

/-- The pieces of `s` between the separators, as strings. -/
def fields (sep : Char) (s : String) : List String := (splitOn sep s.toList).map String.ofList

/-! ## Searching -/

/-- Does `word` stand somewhere in the text? -/
def hasInfix (word : List Char) : List Char → Bool
  | [] => word.isEmpty
  | c :: cs => word.isPrefixOf (c :: cs) || hasInfix word cs

/-! ## Lines -/

/-- A line without the carriage return it ends with. -/
def dropReturn (line : List Char) : List Char :=
  if line.getLast? = some '\r' then line.dropLast else line

/-- The lines of the pieces between the line feeds: the last piece is a line of its own only when
it is not empty, and no line feed stands after it. -/
def linesOf : List (List Char) → List (List Char)
  | [] => []
  | [last] => if last.isEmpty then [] else [last]
  | piece :: next :: pieces => dropReturn piece :: linesOf (next :: pieces)

/-- The lines of a text. -/
def lines (cs : List Char) : List (List Char) := linesOf (splitOn '\n' cs)

end Dossier.Text
