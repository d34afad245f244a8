import Dossier.Proofs.Parse.Narrow

/-!
# The string literals of a body

What the tokens that start with a quote are, in terms of the text behind that quote.

* `eq_stringPiece` leads from a token that starts with a quote back to the piece that was read.
* `KeepsToLine` says that a literal is on one line, and that a quote which is not closed on its line
  is invalid up to the end of the line.  This holds unless the line ends with a backslash that is
  not itself escaped, which takes the line feed along (`keepsToLine_iff`).
* `literal` writes a text as a literal.  It is read as that text, and every literal of every body that
  is not too long is made of escapes and plain characters (`literals_read`).
-/

set_option autoImplicit false

namespace Dossier.Script

open Text (byteLength slice dropBytes)

/-! ## From tokens to literals -/

/-- A token that starts with a quote is the literal behind it. -/
theorem eq_stringPiece {source : String} {t : Token} {behind : List Char}
    (ht : t ∈ tokenize source)
    (hquote : dropBytes t.span.start source.toList = '"' :: behind) :
    (stringPiece behind).kind = some t.kind ∧
      slice source.toList t.span = '"' :: behind.take (stringPiece behind).extra := by
  rcases eq_piece_of_mem_tokensFrom ht with rfl | ⟨before, c, rest, htext, hkind, hspan⟩
  · have hend := Text.dropBytes_append source.toList []
    rw [List.append_nil] at hend
    rw [Nat.zero_add, hend] at hquote
    cases hquote
  · rw [Nat.zero_add] at hspan
    rw [hspan, htext, Text.dropBytes_append] at hquote
    cases hquote
    have hpiece : piece '"' behind = stringPiece behind := by simp [piece, isSpace]
    rw [hpiece] at hkind hspan
    refine ⟨hkind, ?_⟩
    have hslice := Text.slice_append before ('"' :: behind.take (stringPiece behind).extra)
      (behind.drop (stringPiece behind).extra)
    rwa [List.cons_append, List.take_append_drop, ← htext, ← hspan] at hslice

/-- String literals start with a quote. -/
theorem exists_quote_of_string {source : String} {t : Token} {s : String}
    (ht : t ∈ tokenize source) (hkind : t.kind = .string s) :
    ∃ behind, dropBytes t.span.start source.toList = '"' :: behind := by
  rcases eq_piece_of_mem_tokensFrom ht with rfl | ⟨before, c, rest, htext, hpiece, hspan⟩
  · cases hkind
  · rw [hkind] at hpiece
    obtain ⟨inner, hinner, -⟩ := spells_piece hpiece
    obtain ⟨rfl, -⟩ := List.cons.inj hinner
    refine ⟨rest, ?_⟩
    rw [hspan, htext, Nat.zero_add, Text.dropBytes_append]

/-! ## Literals and lines -/

/-- Behind an opening quote, there is a quote on the same line that closes the literal. -/
def ClosesOnLine (behind : List Char) : Prop :=
  ∃ inner rest, behind = inner ++ '"' :: rest ∧ Inside inner ∧ '\n' ∉ inner

/-- Behind an opening quote, the line has no quote that closes the literal, and it ends with a
backslash that is not itself escaped. -/
def EscapesFeed (behind : List Char) : Prop :=
  ∃ inner rest, behind = inner ++ '\\' :: '\n' :: rest ∧ Inside inner ∧ '\n' ∉ inner

/-- The text up to the end of its first line. -/
def firstLine (cs : List Char) : List Char := cs.takeWhile (· != '\n')

/-- The token at an opening quote ends on the line of the quote: as a literal, and also if the
literal is not closed there, where it is invalid. -/
structure KeepsToLine (text behind : List Char) (t : Token) : Prop where
  literal : ∀ s, t.kind = .string s → '\n' ∉ slice text t.span
  unclosed : ¬ ClosesOnLine behind → (∃ s, t.kind = .invalid s) ∧ '\n' ∉ slice text t.span

/-- A literal that closes on its line is scanned up to its closing quote. -/
theorem ClosesOnLine.exists_piece {behind : List Char} (h : ClosesOnLine behind) :
    ∃ inner, stringPiece behind =
        ⟨some (.string (String.ofList (unescape inner))), inner.length + 1⟩ ∧
      '\n' ∉ '"' :: behind.take (inner.length + 1) := by
  obtain ⟨inner, rest, rfl, hinner, hfeed⟩ := h
  refine ⟨inner, stringPiece_closed hinner rest, ?_⟩
  simp [List.take_length_add_append, hfeed]

/-- Where nothing is closed on the line and the line feed is not escaped, the token goes up to
it. -/
theorem exists_piece_of_not_closesOnLine {behind : List Char} (hclosed : ¬ ClosesOnLine behind)
    (hfeed : ¬ EscapesFeed behind) :
    ∃ s n, stringPiece behind = ⟨some (.invalid s), n⟩ ∧ behind.take n = firstLine behind := by
  obtain ⟨inner, rest, rfl, hinner, hrest⟩ := exists_inside behind
  have hline : '\n' ∉ inner := fun hmem ↦ by
    obtain ⟨front, rest', rfl, hfront, hnot⟩ := hinner.exists_of_feed hmem
    exact hfeed ⟨front, rest' ++ rest, by simp, hfront, hnot⟩
  cases hrest with
  | quote rest => exact absurd ⟨inner, rest, rfl, hinner, hline⟩ hclosed
  | feed rest =>
    refine ⟨_, _, stringPiece_unclosed hinner (n := 0) (by simp [stringExtent]), ?_⟩
    rw [firstLine, takeWhile_line hline (by simp)]
    simp
  | nothing =>
    refine ⟨_, _, stringPiece_unclosed hinner (n := 0) rfl, ?_⟩
    rw [firstLine, takeWhile_line hline (by simp)]
    simp
  | backslash =>
    refine ⟨_, _, stringPiece_unclosed hinner (n := 1) rfl, ?_⟩
    have hline' : '\n' ∉ inner ++ ['\\'] := by simp [hline]
    have hfirst := @takeWhile_line _ [] hline' (by simp)
    rw [List.append_nil] at hfirst
    rw [firstLine, hfirst]
    simp

/-- A line feed that is escaped belongs to the token. -/
theorem EscapesFeed.feed_mem {behind : List Char} (h : EscapesFeed behind) :
    '\n' ∈ behind.take (stringPiece behind).extra := by
  obtain ⟨inner, rest, rfl, hinner, -⟩ := h
  have hextent : (stringExtent (inner ++ '\\' :: '\n' :: rest)).2 =
      inner.length + ((stringExtent rest).2 + 2) := by
    rw [stringExtent_append hinner, stringExtent]
  have hextra : (stringPiece (inner ++ '\\' :: '\n' :: rest)).extra =
      inner.length + ((stringExtent rest).2 + 2) := by
    rw [stringPiece, ← hextent]
    cases stringExtent (inner ++ '\\' :: '\n' :: rest) with
    | mk closed n => cases closed <;> rfl
  rw [hextra, List.take_length_add_append]
  simp

/-- **A literal keeps to its line unless the line feed is escaped.**  Every string literal starts
with a quote; and a token that starts with a quote keeps to the line of the quote exactly if that
line, not having closed the literal, does not end with a backslash of its own.  It then ends in
front of the line feed. -/
theorem keepsToLine_iff {source : String} {t : Token} (ht : t ∈ tokenize source) :
    (∀ s, t.kind = .string s → ∃ behind, dropBytes t.span.start source.toList = '"' :: behind) ∧
    ∀ behind, dropBytes t.span.start source.toList = '"' :: behind →
      (KeepsToLine source.toList behind t ↔ ¬ EscapesFeed behind) ∧
      (¬ EscapesFeed behind → ¬ ClosesOnLine behind →
        slice source.toList t.span = '"' :: firstLine behind) := by
  refine ⟨fun s hkind ↦ exists_quote_of_string ht hkind, fun behind hquote ↦ ?_⟩
  obtain ⟨hkind, hslice⟩ := eq_stringPiece ht hquote
  have unclosed (hfeed : ¬ EscapesFeed behind) (hclosed : ¬ ClosesOnLine behind) :
      (∃ s, t.kind = .invalid s) ∧ slice source.toList t.span = '"' :: firstLine behind := by
    obtain ⟨s, n, hpiece, htake⟩ := exists_piece_of_not_closesOnLine hclosed hfeed
    rw [hpiece] at hkind hslice
    exact ⟨⟨s, (Option.some.inj hkind).symm⟩, hslice.trans (congrArg ('"' :: ·) htake)⟩
  refine ⟨⟨fun hkeeps hfeed ↦ ?_, fun hfeed ↦ ⟨fun s hs ↦ ?_, fun hclosed ↦ ?_⟩⟩,
    fun hfeed hclosed ↦ (unclosed hfeed hclosed).2⟩
  · have hmem : '\n' ∈ slice source.toList t.span := by
      rw [hslice]
      exact List.mem_cons_of_mem _ hfeed.feed_mem
    by_cases hclosed : ClosesOnLine behind
    · obtain ⟨inner, hpiece, hnot⟩ := hclosed.exists_piece
      rw [hpiece] at hslice
      exact hnot (hslice ▸ hmem)
    · exact (hkeeps.unclosed hclosed).2 hmem
  · by_cases hclosed : ClosesOnLine behind
    · obtain ⟨inner, hpiece, hnot⟩ := hclosed.exists_piece
      rw [hslice, hpiece]
      exact hnot
    · obtain ⟨⟨s', hs'⟩, -⟩ := unclosed hfeed hclosed
      cases hs'.symm.trans hs
  · obtain ⟨hinvalid, hline⟩ := unclosed hfeed hclosed
    refine ⟨hinvalid, fun hmem ↦ ?_⟩
    rw [hline] at hmem
    have hfirst : '\n' ∈ firstLine behind := by simpa using hmem
    simpa using List.mem_takeWhile_imp hfirst

/-- A quote that is not closed, and a name on the next line. -/
def openLine : String := "\"abc\nx"

/-- The token at the quote keeps to its line. -/
theorem openLine_keeps : ⟨.invalid "\"abc", ⟨0, 4⟩⟩ ∈ tokenize openLine ∧
    dropBytes 0 openLine.toList = '"' :: "abc\nx".toList ∧
    KeepsToLine openLine.toList "abc\nx".toList ⟨.invalid "\"abc", ⟨0, 4⟩⟩ := by
  have hmem : ⟨.invalid "\"abc", ⟨0, 4⟩⟩ ∈ tokenize openLine := by decide +kernel
  have hquote : dropBytes 0 openLine.toList = '"' :: "abc\nx".toList := by decide +kernel
  have hfeed : ¬ EscapesFeed "abc\nx".toList := fun h ↦ absurd h.feed_mem (by decide +kernel)
  exact ⟨hmem, hquote, (((keepsToLine_iff hmem).2 _ hquote).1).2 hfeed⟩

/-- A literal that is closed on the next line, behind a backslash at the end of the first. -/
def brokenLine : String := "\"a\\\nb\""

/-- **A backslash takes the line feed into the literal**, which spans two lines. -/
theorem brokenLine_goes_on :
    tokenize brokenLine = [⟨.string "a\\\nb", ⟨0, 6⟩⟩, ⟨.done, ⟨6, 6⟩⟩] ∧
    ¬ ∀ t ∈ tokenize brokenLine, ∀ s, t.kind = .string s →
      '\n' ∉ slice brokenLine.toList t.span := by
  have htokens : tokenize brokenLine = [⟨.string "a\\\nb", ⟨0, 6⟩⟩, ⟨.done, ⟨6, 6⟩⟩] := by
    decide +kernel
  refine ⟨htokens, fun hall ↦ ?_⟩
  exact hall ⟨.string "a\\\nb", ⟨0, 6⟩⟩ (by rw [htokens]; simp) _ rfl (by decide +kernel)

/-! ## Literals that are written -/

/-- The text as a string literal. -/
def literal (s : String) : String := String.ofList ('"' :: (escape s.toList ++ ['"']))

theorem tokenize_literal (s : String) :
    tokenize (literal s) =
      [⟨.string s, ⟨0, byteLength (literal s).toList⟩⟩, endToken (literal s).toList] := by
  have hpiece : piece '"' (escape s.toList ++ ['"']) =
      ⟨some (.string s), (escape s.toList).length + 1⟩ := by
    have h := stringPiece_closed (inside_escape s.toList) []
    rw [unescape_escape, String.ofList_toList] at h
    simpa [piece, isSpace] using h
  have hall : (escape s.toList ++ ['"']).length ≤ (escape s.toList).length + 1 := by simp
  rw [tokenize, literal, String.toList_ofList, tokensFrom, hpiece]
  dsimp only
  rw [tokensFrom_skip, List.take_of_length_le hall, List.drop_of_length_le hall, tokensFrom]
  simp [endToken, byteLength]

/-- What stands between the quotes of a literal. -/
theorem exists_inside_of_string {source : String} {t : Token} (ht : t ∈ tokenize source) {s : String}
    (hkind : t.kind = .string s) :
    ∃ inner, slice source.toList t.span = '"' :: (inner ++ ['"']) ∧ Inside inner ∧
      unescape? inner = some s.toList := by
  obtain ⟨behind, hquote⟩ := exists_quote_of_string ht hkind
  obtain ⟨hpiece, hslice⟩ := eq_stringPiece ht hquote
  rw [hkind] at hpiece
  obtain ⟨inner, rest, rfl, hinner, htext⟩ := exists_of_stringPiece hpiece
  rw [stringPiece_closed hinner] at hslice
  refine ⟨inner, ?_, hinner, ?_⟩
  · rw [hslice, List.take_length_add_append]
    rfl
  · rw [hinner.unescape?_eq, htext, String.toList_ofList]

/-- **Literals are scanned as they are read.**  Every text, written between quotes with escapes for
backslashes, quotes, line feeds, tabs, carriage returns and nulls, is one token, which has this
text. And between the quotes of every literal there are only escapes and plain characters, so that
reading the text of the literal off them never meets a backslash with nothing behind it.  Both are
about bodies of fewer than `2 ^ 32` bytes, of which the tokens are kept with the places that they
have. -/
theorem literals_read :
    (∀ s, byteLength (literal s).toList < UInt32.size → narrowTokens? (literal s) =
      some [⟨.string s, ⟨0, byteLength (literal s).toList⟩⟩, endToken (literal s).toList]) ∧
    ∀ source, byteLength source.toList < UInt32.size → ∃ tokens, narrowTokens? source = some tokens ∧
      ∀ t ∈ tokens, ∀ s, t.kind = .string s →
        ∃ inner, slice source.toList t.span = '"' :: (inner ++ ['"']) ∧ Inside inner ∧
          unescape? inner = some s.toList := by
  refine ⟨fun s hshort ↦ ?_, fun source hshort ↦ ⟨_, narrowTokens?_eq hshort, ?_⟩⟩
  · rw [narrowTokens?_eq hshort, tokenize_literal]
  · intro t ht s hkind
    exact exists_inside_of_string ht hkind

/-- A literal in which a backslash of its own stands in front of the closing quote, and the text that it
is written for. -/
theorem escapedText_read :
    narrowTokens? "\"a\\\"\\\\\"" = some [⟨.string "a\"\\", ⟨0, 7⟩⟩, ⟨.done, ⟨7, 7⟩⟩] ∧
    ∃ inner, slice "f(\"a\\\"\\\\\")".toList ⟨2, 9⟩ = '"' :: (inner ++ ['"']) ∧ Inside inner ∧
      unescape? inner = some "a\"\\".toList := by
  obtain ⟨hwritten, hread⟩ := literals_read
  have hliteral : literal "a\"\\" = "\"a\\\"\\\\\"" := by decide +kernel
  have hone := hwritten "a\"\\" (by rw [hliteral]; decide +kernel)
  obtain ⟨tokens, htokens, hinside⟩ := hread "f(\"a\\\"\\\\\")" (by decide +kernel)
  rw [narrowTokens?_eq (by decide +kernel)] at htokens
  obtain rfl := Option.some.inj htokens
  refine ⟨?_, hinside ⟨.string "a\"\\", ⟨2, 9⟩⟩ (by decide +kernel) _ rfl⟩
  rw [hliteral] at hone
  exact hone.trans (by decide +kernel)

end Dossier.Script
