import Dossier.Script.Token.Scan

/-!
# What stands between quotes

A string literal is scanned for its closing quote by `stringExtent`, and what it stands for is found
by `unescape`.  Both walk over the text behind the opening quote, and this file is about what they
agree on: where each escape starts.

* `Inside` says of a text that it is a row of escapes and of characters that stand for themselves.
* `stringExtent_append` takes the scan over such a text, and `exists_inside` says that only a quote,
  a line feed or the end of the text can stop it there.
* `unescape?` is `unescape` without the branch for a backslash at the end; `Inside.unescape?_eq`
  says that a text of this form does not miss the branch.
* `escape` writes a text so that it can stand between quotes, and `unescape_escape` reads it back.
-/

set_option autoImplicit false

namespace Dossier.Script

/-! ## Escapes and characters that stand for themselves -/

/-- The text is a row of escapes, each of which is a backslash and the character behind it, and of
other characters.  No quote and no line feed is among the others. -/
inductive Inside : List Char → Prop
  | nil : Inside []
  | plain {c : Char} {cs : List Char} :
    c ≠ '"' → c ≠ '\\' → c ≠ '\n' → Inside cs → Inside (c :: cs)
  | escape (c : Char) {cs : List Char} : Inside cs → Inside ('\\' :: c :: cs)

namespace Inside

/-- A line feed is there only as part of an escape. -/
theorem exists_of_feed {cs : List Char} (h : Inside cs) (hmem : '\n' ∈ cs) :
    ∃ front rest, cs = front ++ '\\' :: '\n' :: rest ∧ Inside front ∧ '\n' ∉ front := by
  induction h with
  | nil => cases hmem
  | @plain c cs hquote hslash hfeed hcs ih =>
    obtain ⟨front, rest, rfl, hfront, hnot⟩ :=
      ih ((List.mem_cons.1 hmem).resolve_left (Ne.symm hfeed))
    refine ⟨c :: front, rest, rfl, .plain hquote hslash hfeed hfront, fun h ↦ ?_⟩
    exact (List.mem_cons.1 h).elim (Ne.symm hfeed) hnot
  | @escape c cs hcs ih =>
    by_cases hc : c = '\n'
    · subst hc
      exact ⟨[], cs, rfl, .nil, List.not_mem_nil⟩
    · have hrest : '\n' ∈ cs := by simpa [Ne.symm hc] using hmem
      obtain ⟨front, rest, rfl, hfront, hnot⟩ := ih hrest
      exact ⟨'\\' :: c :: front, rest, rfl, .escape c hfront, by simp [Ne.symm hc, hnot]⟩

end Inside

/-! ## Scanning -/

theorem stringExtent_plain {c : Char} (hquote : c ≠ '"') (hslash : c ≠ '\\') (hfeed : c ≠ '\n')
    (cs : List Char) :
    stringExtent (c :: cs) = ((stringExtent cs).1, (stringExtent cs).2 + 1) := by
  rw [stringExtent] <;> simp_all

/-- **The scan goes on behind a text of escapes and plain characters.** -/
theorem stringExtent_append {inner : List Char} (h : Inside inner) (cs : List Char) :
    stringExtent (inner ++ cs) =
      ((stringExtent cs).1, inner.length + (stringExtent cs).2) := by
  induction h with
  | nil => simp
  | plain hquote hslash hfeed _ ih =>
    rw [List.cons_append, stringExtent_plain hquote hslash hfeed, ih, List.length_cons]
    exact congrArg (Prod.mk _) (by omega)
  | escape c _ ih =>
    rw [List.cons_append, List.cons_append, stringExtent, ih, List.length_cons, List.length_cons]
    exact congrArg (Prod.mk _) (by omega)

/-- Where the scan stops: at a quote, at a line feed, or at the end of the text, where a backslash
may have been left over. -/
inductive StopsScan : List Char → Prop
  | quote (cs : List Char) : StopsScan ('"' :: cs)
  | feed (cs : List Char) : StopsScan ('\n' :: cs)
  | nothing : StopsScan []
  | backslash : StopsScan ['\\']

/-- Every text is of escapes and plain characters up to where the scan stops. -/
theorem exists_inside (cs : List Char) :
    ∃ inner rest, cs = inner ++ rest ∧ Inside inner ∧ StopsScan rest := by
  induction cs using stringExtent.induct with
  | case1 => exact ⟨[], [], rfl, .nil, .nothing⟩
  | case2 cs => exact ⟨[], _, rfl, .nil, .quote cs⟩
  | case3 cs => exact ⟨[], _, rfl, .nil, .feed cs⟩
  | case4 => exact ⟨[], _, rfl, .nil, .backslash⟩
  | case5 c cs _ _ _ ih =>
    obtain ⟨inner, rest, rfl, hinner, hrest⟩ := ih
    exact ⟨'\\' :: c :: inner, rest, rfl, .escape c hinner, hrest⟩
  | case6 c cs hquote hfeed hlast hescape _ _ _ ih =>
    obtain ⟨inner, rest, rfl, hinner, hrest⟩ := ih
    refine ⟨c :: inner, rest, rfl, .plain hquote ?_ hfeed hinner, hrest⟩
    -- a backslash in front of another character would have been an escape
    rintro rfl
    cases h : inner ++ rest with
    | nil => exact hlast rfl h
    | cons d ds => exact hescape d ds rfl h

/-- A literal that is closed. -/
theorem stringPiece_closed {inner : List Char} (h : Inside inner) (rest : List Char) :
    stringPiece (inner ++ '"' :: rest) =
      ⟨some (.string (String.ofList (unescape inner))), inner.length + 1⟩ := by
  have hextent : stringExtent (inner ++ '"' :: rest) = (true, inner.length + 1) :=
    stringExtent_append h _
  rw [stringPiece, hextent]
  simp

/-- One that is not closed, because the scan stops at something else than a quote. -/
theorem stringPiece_unclosed {inner rest : List Char} {n : Nat} (h : Inside inner)
    (hrest : stringExtent rest = (false, n)) :
    stringPiece (inner ++ rest) =
      ⟨some (.invalid (String.ofList ('"' :: (inner ++ rest.take n)))), inner.length + n⟩ := by
  have hextent : stringExtent (inner ++ rest) = (false, inner.length + n) := by
    rw [stringExtent_append h, hrest]
  rw [stringPiece, hextent]
  simp [List.take_length_add_append]

/-- **A literal is closed, or what was scanned is invalid.** -/
theorem stringPiece_cases (cs : List Char) :
    (∃ inner rest, cs = inner ++ '"' :: rest ∧ Inside inner ∧
      stringPiece cs = ⟨some (.string (String.ofList (unescape inner))), inner.length + 1⟩) ∨
    ∃ n, n ≤ cs.length ∧
      stringPiece cs = ⟨some (.invalid (String.ofList ('"' :: cs.take n))), n⟩ := by
  obtain ⟨inner, rest, rfl, hinner, hrest⟩ := exists_inside cs
  have unclosed {n : Nat} (hn : n ≤ rest.length) (h : stringExtent rest = (false, n)) :
      ∃ n, n ≤ (inner ++ rest).length ∧ stringPiece (inner ++ rest) =
        ⟨some (.invalid (String.ofList ('"' :: (inner ++ rest).take n))), n⟩ := by
    refine ⟨inner.length + n, by simpa using hn, ?_⟩
    rw [stringPiece_unclosed hinner h, List.take_length_add_append]
  cases hrest with
  | quote rest => exact .inl ⟨inner, rest, rfl, hinner, stringPiece_closed hinner rest⟩
  | feed rest => exact .inr (unclosed (Nat.zero_le _) (by simp [stringExtent]))
  | nothing => exact .inr (unclosed (Nat.zero_le _) rfl)
  | backslash => exact .inr (unclosed (Nat.le_refl 1) rfl)

/-- The inside of a literal that is closed. -/
theorem exists_of_stringPiece {cs : List Char} {s : String}
    (h : (stringPiece cs).kind = some (.string s)) :
    ∃ inner rest, cs = inner ++ '"' :: rest ∧ Inside inner ∧
      s = String.ofList (unescape inner) := by
  rcases stringPiece_cases cs with ⟨inner, rest, hcs, hinner, hpiece⟩ | ⟨n, -, hpiece⟩
  · rw [hpiece] at h
    cases h
    exact ⟨inner, rest, hcs, hinner, rfl⟩
  · rw [hpiece] at h
    cases h

/-! ## Escapes are read -/

/-- What an escape stands for, by the character behind the backslash. -/
def escaped : Char → List Char
  | 'n' => ['\n']
  | 't' => ['\t']
  | 'r' => ['\r']
  | '0' => ['\x00']
  | '\\' => ['\\']
  | '"' => ['"']
  | c => ['\\', c]

theorem unescape_cons_escape (c : Char) (cs : List Char) :
    unescape ('\\' :: c :: cs) = escaped c ++ unescape cs := by
  rw [escaped.eq_def]
  split
  case h_7 h₁ h₂ h₃ h₄ h₅ h₆ => rw [unescape] <;> simp_all
  all_goals rfl

theorem unescape_cons_plain {c : Char} (hslash : c ≠ '\\') (cs : List Char) :
    unescape (c :: cs) = c :: unescape cs := by
  rw [unescape] <;> simp_all

/-- The text that the inside of a literal stands for, read like `unescape` does, but not if there is
a backslash at the end with nothing behind it. -/
def unescape? : List Char → Option (List Char)
  | [] => some []
  | ['\\'] => none
  | '\\' :: c :: cs => (unescape? cs).map (escaped c ++ ·)
  | c :: cs => (unescape? cs).map (c :: ·)

/-- **No backslash is left over** in a text of escapes and plain characters. -/
theorem Inside.unescape?_eq {cs : List Char} (h : Inside cs) :
    unescape? cs = some (unescape cs) := by
  induction h with
  | nil => rfl
  | plain hquote hslash hfeed _ ih =>
    rw [unescape?, ih, unescape_cons_plain hslash, Option.map_some]
    all_goals simp [hslash]
  | escape c _ ih => rw [unescape?, ih, unescape_cons_escape, Option.map_some]

/-! ## Escapes are written -/

/-- How a character is written in a literal. -/
def escapeChar : Char → List Char
  | '\\' => ['\\', '\\']
  | '"' => ['\\', '"']
  | '\n' => ['\\', 'n']
  | '\t' => ['\\', 't']
  | '\r' => ['\\', 'r']
  | '\x00' => ['\\', '0']
  | c => [c]

/-- How a text is written in a literal. -/
def escape (cs : List Char) : List Char := cs.flatMap escapeChar

/-- A character is written as an escape that stands for it, or it stands for itself. -/
theorem escapeChar_cases (c : Char) :
    (∃ e, escapeChar c = ['\\', e] ∧ escaped e = [c]) ∨
      (escapeChar c = [c] ∧ c ≠ '"' ∧ c ≠ '\\' ∧ c ≠ '\n') := by
  rw [escapeChar.eq_def]
  split
  case h_7 h₁ h₂ h₃ h₄ h₅ h₆ => exact .inr ⟨rfl, h₂, h₁, h₃⟩
  all_goals exact .inl ⟨_, rfl, rfl⟩

theorem inside_escape (cs : List Char) : Inside (escape cs) := by
  induction cs with
  | nil => exact .nil
  | cons c cs ih =>
    rw [escape, List.flatMap_cons]
    rcases escapeChar_cases c with ⟨e, hchars, -⟩ | ⟨hchars, hquote, hslash, hfeed⟩
    · rw [hchars]
      exact .escape e ih
    · rw [hchars]
      exact .plain hquote hslash hfeed ih

/-- **What is written is read back.** -/
theorem unescape_escape (cs : List Char) : unescape (escape cs) = cs := by
  induction cs with
  | nil => rfl
  | cons c cs ih =>
    rw [escape, List.flatMap_cons]
    rcases escapeChar_cases c with ⟨e, hchars, hescaped⟩ | ⟨hchars, -, hslash, -⟩
    · rw [hchars, List.cons_append, List.cons_append, List.nil_append, unescape_cons_escape,
        hescaped]
      exact congrArg (c :: ·) ih
    · rw [hchars, List.cons_append, List.nil_append, unescape_cons_plain hslash]
      exact congrArg (c :: ·) ih

end Dossier.Script
