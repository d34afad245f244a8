import Dossier.Proofs.Parse.Literal
import Dossier.Proofs.Text.Places
import Mathlib.Data.List.Infix
import Mathlib.Data.List.TakeWhile

/-!
# No text is lost between tokens

The tokens of a body, with the gaps between them, are the whole body.

* `Gap` says what can stand between tokens: blanks, line feeds, and comments that end, each of which
  goes as far as the text behind it makes it go.
* `TokenKind.Spells` says which text a token stands on.
* `Laid` puts the two together: a text is gap, word, gap, word, …, gap, and its tokens have the
  spans of the words.  `laid_tokensFrom` says that the tokens of a text are laid on it; the
  induction is on the length of the text, since a piece is cut off at a time.
-/

set_option autoImplicit false

namespace Dossier.Script

open Text (Span IsBoundary byteLength slice isPlainDigit isNameStart isNameChar)

/-! ## What stands between tokens -/

/-- The characters that separate tokens and mean nothing. -/
def IsGapChar (c : Char) : Prop := c = ' ' ∨ c = '\t' ∨ c = '\r' ∨ c = '\n'

/-- The text can stand between tokens, in front of the text `behind`: it is made of spaces, tabs,
carriage returns, line feeds, comments up to the end of their line, and closed comments. -/
inductive Gap : List Char → List Char → Prop
  | nil (behind : List Char) : Gap [] behind
  | blank {c : Char} {gap behind : List Char} :
    IsGapChar c → Gap gap behind → Gap (c :: gap) behind
  | line {text gap behind : List Char} :
    '\n' ∉ text → (∀ c, (gap ++ behind).head? = some c → c = '\n') → Gap gap behind →
    Gap ('/' :: '/' :: (text ++ gap)) behind
  | block {text gap behind : List Char} :
    ¬ ['*', '/'] <:+: text → Gap gap behind →
    Gap ('/' :: '*' :: (text ++ '*' :: '/' :: gap)) behind

namespace Gap

theorem blanks {cs gap behind : List Char} (h : ∀ c ∈ cs, IsGapChar c) (hgap : Gap gap behind) :
    Gap (cs ++ gap) behind := by
  induction cs with
  | nil => exact hgap
  | cons c cs ih =>
    obtain ⟨hc, hcs⟩ := List.forall_mem_cons.1 h
    exact .blank hc (ih hcs)

end Gap

theorem isGapChar_of_isSpace {c : Char} (h : isSpace c = true) : IsGapChar c := by
  simp only [isSpace, Bool.or_eq_true, beq_iff_eq] at h
  rcases h with (h | h) | h
  · exact .inl h
  · exact .inr (.inl h)
  · exact .inr (.inr (.inl h))

/-- A comment ends at the first star with a slash behind it. -/
theorem commentEnd?_eq_some {cs : List Char} {n : Nat} (h : commentEnd? cs = some n) :
    ∃ text rest, cs = text ++ '*' :: '/' :: rest ∧ n = text.length + 2 ∧
      ¬ ['*', '/'] <:+: text := by
  induction cs using commentEnd?.induct generalizing n with
  | case1 => cases h
  | case2 rest =>
    cases h
    exact ⟨[], rest, rfl, rfl, by simp⟩
  | case3 c cs hfirst ih =>
    rw [commentEnd?, Option.map_eq_some_iff] at h
    · obtain ⟨m, hm, rfl⟩ := h
      obtain ⟨text, rest, rfl, rfl, htext⟩ := ih hm
      refine ⟨c :: text, rest, rfl, rfl, fun hinfix ↦ ?_⟩
      rcases List.infix_cons_iff.1 hinfix with hprefix | hinfix
      · obtain ⟨tail, htail⟩ := hprefix
        cases htail
        exact hfirst _ rfl rfl
      · exact htext hinfix
    · exact hfirst

/-- A run of characters is taken off by its length. -/
theorem take_takeWhile (p : Char → Bool) (cs : List Char) :
    cs.take (cs.takeWhile p).length = cs.takeWhile p :=
  (List.prefix_iff_eq_take.1 (List.takeWhile_prefix p)).symm

theorem drop_takeWhile (p : Char → Bool) (cs : List Char) :
    cs.drop (cs.takeWhile p).length = cs.dropWhile p := by
  have h := List.take_append_drop (cs.takeWhile p).length cs
  rw [take_takeWhile] at h
  exact List.append_cancel_left (h.trans List.takeWhile_append_dropWhile.symm)

/-- A line goes up to its line feed, or to the end of the text. -/
theorem takeWhile_line {line rest : List Char} (hline : '\n' ∉ line)
    (hrest : ∀ c, rest.head? = some c → c = '\n') :
    (line ++ rest).takeWhile (· != '\n') = line := by
  have hall : ∀ c ∈ line, (c != '\n') = true := fun c hc ↦
    bne_iff_ne.2 fun heq ↦ hline (heq ▸ hc)
  rw [List.takeWhile_append_of_pos hall]
  cases rest with
  | nil => rw [List.takeWhile_nil, List.append_nil]
  | cons c rest => simp [hrest c rfl]

/-- A comment up to the end of its line is one between tokens. -/
theorem gap_of_line {cs gap behind : List Char}
    (hrest : cs.dropWhile (· != '\n') = gap ++ behind) (hgap : Gap gap behind) :
    Gap ('/' :: '/' :: (cs.takeWhile (· != '\n') ++ gap)) behind := by
  refine .line (fun hmem ↦ ?_) (fun c hc ↦ ?_) hgap
  · simpa using List.mem_takeWhile_imp hmem
  · have hstop := List.head?_dropWhile_not (· != '\n') cs
    rw [hrest, hc] at hstop
    simpa using hstop

/-- So is a comment that is closed. -/
theorem gap_of_block {cs gap behind : List Char} {n : Nat} (h : commentEnd? cs = some n)
    (hgap : Gap gap behind) : Gap ('/' :: '*' :: (cs.take n ++ gap)) behind := by
  obtain ⟨text, rest, rfl, rfl, htext⟩ := commentEnd?_eq_some h
  have htake : (text ++ '*' :: '/' :: rest).take (text.length + 2) = text ++ ['*', '/'] := by
    rw [List.take_length_add_append]
    rfl
  rw [htake, List.append_assoc]
  exact .block htext hgap

theorem kind_namePiece_ne_none (c : Char) (cs : List Char) : (namePiece c cs).kind ≠ none := by
  simp [namePiece]

theorem kind_numberPiece_ne_none (c : Char) (cs : List Char) : (numberPiece c cs).kind ≠ none := by
  rw [numberPiece]
  dsimp only
  split
  · split <;> simp
  · simp

theorem kind_stringPiece_ne_none (cs : List Char) : (stringPiece cs).kind ≠ none := by
  rw [stringPiece]
  dsimp only
  split <;> simp

theorem kind_symbolPiece_ne_none (c : Char) (cs : List Char) : (symbolPiece c cs).kind ≠ none := by
  rw [symbolPiece]
  split
  · simp
  · split <;> simp

/-- **What is dropped may stand between tokens.** -/
theorem gap_of_piece {c : Char} {cs gap behind : List Char} (h : (piece c cs).kind = none)
    (hrest : cs.drop (piece c cs).extra = gap ++ behind) (hgap : Gap gap behind) :
    Gap (c :: (cs.take (piece c cs).extra ++ gap)) behind := by
  rw [piece] at h hrest ⊢
  split_ifs at h hrest ⊢ with hspace hfeed hline hblock hquote hdigit hstart
  · rw [take_takeWhile]
    refine .blank (isGapChar_of_isSpace hspace) (.blanks (fun d hd ↦ ?_) hgap)
    exact isGapChar_of_isSpace (List.mem_takeWhile_imp hd)
  · exact .blank (.inr (.inr (.inr hfeed))) hgap
  · obtain ⟨rfl, hhead⟩ := hline
    obtain ⟨rest, rfl⟩ := List.head?_eq_some_iff.1 hhead
    rw [drop_takeWhile] at hrest
    rw [take_takeWhile]
    exact gap_of_line hrest hgap
  · obtain ⟨rfl, hhead⟩ := hblock
    obtain ⟨rest, rfl⟩ := List.head?_eq_some_iff.1 hhead
    rw [commentPiece, List.drop_one, List.tail_cons] at h ⊢
    cases hend : commentEnd? rest with
    | none =>
      rw [hend] at h
      cases h
    | some n => exact gap_of_block hend hgap
  · exact absurd h (kind_stringPiece_ne_none cs)
  · exact absurd h (kind_numberPiece_ne_none c cs)
  · exact absurd h (kind_namePiece_ne_none c cs)
  · exact absurd h (kind_symbolPiece_ne_none c cs)

/-! ## What tokens stand on -/

/-- The text that a token of the kind stands on: its own, that of its word or of its symbol; or, for
a string literal, one between two quotes that says what its text is. -/
def TokenKind.Spells : TokenKind → List Char → Prop
  | .name text, w => w = text.toList
  | .int digits, w => w = digits.toList
  | .float digits, w => w = digits.toList
  | .string text, w => ∃ inner, w = '"' :: inner ++ ['"'] ∧ text = String.ofList (unescape inner)
  | .keyword word, w => w = word.spelling.toList
  | .symbol mark, w => w = mark.spelling.toList
  | .invalid text, w => w = text.toList
  | .done, w => w = []

theorem Keyword.spelling_of_ofSpelling? {text : String} {word : Keyword}
    (h : ofSpelling? text = some word) : word.spelling = text := by
  simpa using List.find?_some h

theorem spells_namePiece {c : Char} {cs : List Char} {kind : TokenKind}
    (h : (namePiece c cs).kind = some kind) :
    kind.Spells (c :: cs.take (namePiece c cs).extra) := by
  simp only [namePiece, take_takeWhile, Option.some.injEq] at h ⊢
  split at h
  · rename_i word hword
    cases h
    rw [TokenKind.Spells, Keyword.spelling_of_ofSpelling? hword, String.toList_ofList]
  · cases h
    rw [TokenKind.Spells, String.toList_ofList]

/-- Digits, a point, and the digits behind it are taken off by their length. -/
theorem take_fraction {cs rest : List Char} {d : Char}
    (h : cs.dropWhile isPlainDigit = '.' :: d :: rest) :
    cs.take ((cs.takeWhile isPlainDigit).length + 1 + ((rest.takeWhile isPlainDigit).length + 1)) =
      cs.takeWhile isPlainDigit ++ '.' :: d :: rest.takeWhile isPlainDigit := by
  have hcs : cs = (cs.takeWhile isPlainDigit ++ '.' :: d :: rest.takeWhile isPlainDigit) ++
      rest.dropWhile isPlainDigit := by
    rw [List.append_assoc, List.cons_append, List.cons_append, List.takeWhile_append_dropWhile, ← h,
      List.takeWhile_append_dropWhile]
  refine (congrArg (List.take _) hcs).trans (List.take_left' ?_)
  simp only [List.length_append, List.length_cons]
  omega

theorem spells_numberPiece {c : Char} {cs : List Char} {kind : TokenKind}
    (h : (numberPiece c cs).kind = some kind) :
    kind.Spells (c :: cs.take (numberPiece c cs).extra) := by
  rw [numberPiece] at h ⊢
  dsimp only at h ⊢
  split at h
  · rename_i d rest hdrop
    split at h
    · rename_i hd
      cases h
      simp [hd, TokenKind.Spells, take_fraction hdrop]
    · rename_i hd
      cases h
      simp [hd, TokenKind.Spells, take_takeWhile]
  · cases h
    simp [TokenKind.Spells, take_takeWhile]

theorem spells_stringPiece {cs : List Char} {kind : TokenKind}
    (h : (stringPiece cs).kind = some kind) :
    kind.Spells ('"' :: cs.take (stringPiece cs).extra) := by
  rcases stringPiece_cases cs with ⟨inner, rest, rfl, -, hpiece⟩ | ⟨n, -, hpiece⟩
  · rw [hpiece] at h ⊢
    cases h
    exact ⟨inner, by simp [List.take_length_add_append], rfl⟩
  · rw [hpiece] at h ⊢
    cases h
    simp [TokenKind.Spells]

theorem spells_commentPiece {cs : List Char} {kind : TokenKind}
    (h : (commentPiece cs).kind = some kind) :
    kind.Spells ('/' :: cs.take (commentPiece cs).extra) := by
  rw [commentPiece] at h ⊢
  split at h
  · cases h
  · cases h
    simp [TokenKind.Spells]

theorem Symbol.spelling_of_single? {c : Char} {mark : Symbol} (h : single? c = some mark) :
    mark.spelling.toList = [c] := by
  unfold single? at h
  split at h <;> cases h <;> rfl

theorem Symbol.spelling_of_double? {c d : Char} {mark : Symbol} (h : double? c d = some mark) :
    mark.spelling.toList = [c, d] := by
  unfold double? at h
  split at h <;> cases h <;> rfl

theorem spells_symbolPiece {c : Char} {cs : List Char} {kind : TokenKind}
    (h : (symbolPiece c cs).kind = some kind) :
    kind.Spells (c :: cs.take (symbolPiece c cs).extra) := by
  rw [symbolPiece] at h ⊢
  split at h
  · rename_i mark hmark
    cases h
    obtain ⟨d, hd, hmark⟩ := Option.bind_eq_some_iff.1 hmark
    obtain ⟨rest, rfl⟩ := List.head?_eq_some_iff.1 hd
    simp [TokenKind.Spells, Symbol.spelling_of_double? hmark]
  · split at h
    · rename_i mark hmark
      cases h
      simp [TokenKind.Spells, Symbol.spelling_of_single? hmark]
    · cases h
      simp [TokenKind.Spells]

/-- **A token stands on its text.** -/
theorem spells_piece {c : Char} {cs : List Char} {kind : TokenKind}
    (h : (piece c cs).kind = some kind) : kind.Spells (c :: cs.take (piece c cs).extra) := by
  rw [piece] at h ⊢
  split_ifs at h ⊢ with hspace hfeed hline hblock hquote hdigit hstart
  · obtain ⟨rfl, -⟩ := hblock
    exact spells_commentPiece h
  · subst hquote
    exact spells_stringPiece h
  · exact spells_numberPiece h
  · exact spells_namePiece h
  · exact spells_symbolPiece h

/-! ## Tokens and pieces -/

/-- **A token is the end of the text, or the piece at its place.** -/
theorem eq_piece_of_mem_tokensFrom {skip offset : Nat} {cs : List Char} {t : Token}
    (h : t ∈ tokensFrom skip offset cs) :
    t = ⟨.done, ⟨offset + byteLength cs, offset + byteLength cs⟩⟩ ∨
      ∃ before c rest, cs = before ++ c :: rest ∧ (piece c rest).kind = some t.kind ∧
        t.span = ⟨offset + byteLength before,
          offset + byteLength before + byteLength (c :: rest.take (piece c rest).extra)⟩ := by
  induction cs generalizing skip offset with
  | nil =>
    have ht : t = ⟨.done, ⟨offset, offset⟩⟩ := by cases skip <;> simpa [tokensFrom] using h
    exact .inl ht
  | cons c cs ih =>
    -- what is read behind the first character
    have behind {skip' : Nat} (h : t ∈ tokensFrom skip' (offset + c.utf8Size) cs) :
        t = ⟨.done, ⟨offset + byteLength (c :: cs), offset + byteLength (c :: cs)⟩⟩ ∨
          ∃ before d rest, c :: cs = before ++ d :: rest ∧ (piece d rest).kind = some t.kind ∧
            t.span = ⟨offset + byteLength before,
              offset + byteLength before + byteLength (d :: rest.take (piece d rest).extra)⟩ := by
      rcases ih h with rfl | ⟨before, d, rest, rfl, hkind, hspan⟩
      · exact .inl (by simp [byteLength, Nat.add_assoc])
      · refine .inr ⟨c :: before, d, rest, rfl, hkind, ?_⟩
        rw [hspan]
        simp [byteLength, Nat.add_assoc]
    cases skip with
    | succ skip => exact behind h
    | zero =>
      rw [tokensFrom] at h
      cases hkind : (piece c cs).kind with
      | none =>
        rw [hkind] at h
        exact behind h
      | some kind =>
        rw [hkind] at h
        rcases List.mem_cons.1 h with rfl | h
        · exact .inr ⟨[], c, cs, rfl, hkind, rfl⟩
        · exact behind h

/-! ## Gaps and words -/

/-- The tokens of a text that starts at a byte: the text is gap, word, gap, word, and so on to the
last gap, and each token stands on its word. -/
inductive Laid : Nat → List Char → List Token → Prop
  | done {offset : Nat} {gap : List Char} : Gap gap [] →
    Laid offset gap [⟨.done, ⟨offset + byteLength gap, offset + byteLength gap⟩⟩]
  | token {offset : Nat} {gap word rest : List Char} {kind : TokenKind} {ts : List Token} :
    Gap gap (word ++ rest) → word ≠ [] → kind.Spells word →
    Laid (offset + byteLength gap + byteLength word) rest ts →
    Laid offset (gap ++ (word ++ rest))
      (⟨kind, ⟨offset + byteLength gap, offset + byteLength gap + byteLength word⟩⟩ :: ts)

/-- What is dropped is the start of the first gap. -/
theorem Laid.dropped {offset : Nat} {c : Char} {cs : List Char} {ts : List Token}
    (hkind : (piece c cs).kind = none)
    (h : Laid (offset + byteLength (c :: cs.take (piece c cs).extra)) (cs.drop (piece c cs).extra)
      ts) : Laid offset (c :: cs) ts := by
  generalize hoffset : offset + byteLength (c :: cs.take (piece c cs).extra) = start at h
  generalize hrest : cs.drop (piece c cs).extra = rest at h
  have hcs : c :: cs = c :: cs.take (piece c cs).extra ++ rest := by
    rw [← hrest, List.cons_append, List.take_append_drop]
  cases h with
  | done hgap =>
    have hlength : start + byteLength rest = offset + byteLength (c :: cs) := by
      rw [← hoffset, hcs, Text.byteLength_append, Nat.add_assoc]
    rw [hlength, hcs]
    refine .done (gap_of_piece hkind ?_ hgap)
    rw [hrest, List.append_nil]
  | @token _ gap word rest' kind ts hgap hword hspells hlaid =>
    have hgap' := gap_of_piece hkind hrest hgap
    have hlength : start + byteLength gap =
        offset + byteLength (c :: (cs.take (piece c cs).extra ++ gap)) := by
      rw [← hoffset, ← List.cons_append, Text.byteLength_append, Nat.add_assoc]
    rw [hlength] at hlaid ⊢
    rw [hcs, ← List.append_assoc]
    exact .token hgap' hword hspells hlaid

/-- **The tokens of a text are laid on it.** -/
theorem laid_tokensFrom (offset : Nat) (cs : List Char) :
    Laid offset cs (tokensFrom 0 offset cs) := by
  induction hlength : cs.length using Nat.strongRecOn generalizing offset cs with
  | ind n ih =>
    cases cs with
    | nil => exact .done (.nil [])
    | cons c cs =>
      have hshorter : (cs.drop (piece c cs).extra).length < n := by
        rw [← hlength, List.length_cons, List.length_drop]
        omega
      have hrest := ih _ hshorter (offset + byteLength (c :: cs.take (piece c cs).extra)) _ rfl
      rw [tokensFrom, tokensFrom_skip, Nat.add_assoc]
      cases hkind : (piece c cs).kind with
      | none => exact .dropped hkind hrest
      | some kind =>
        have htoken := Laid.token (.nil _) (by simp) (spells_piece hkind) hrest
        simpa [List.take_append_drop, byteLength] using htoken

/-! ## The result -/

/-- The stretches in front of the tokens, from a byte on. -/
def gapsFrom : Nat → List Token → List Span
  | _, [] => []
  | start, t :: ts => ⟨start, t.span.start⟩ :: gapsFrom t.span.stop ts

/-- The token stands on some characters of the text, which spell it. -/
structure Token.StandsIn (text : List Char) (t : Token) : Prop where
  nonempty : t.span.start < t.span.stop
  fits : t.span.Fits text
  spells : t.kind.Spells (slice text t.span)

/-- The stretch of the text can stand between tokens. -/
structure IsGap (text : List Char) (gap : Span) : Prop where
  fits : gap.Fits text
  blank : Gap (slice text gap) (Text.dropBytes gap.stop text)

/-- The end of a text, as a token. -/
def endToken (text : List Char) : Token := ⟨.done, ⟨byteLength text, byteLength text⟩⟩

/-- The tokens, in front of the end, stand in the text from a byte on, one after the other, and what
is in front of each of them and of the end is a gap. -/
structure Tile (text : List Char) (offset : Nat) (front : List Token) : Prop where
  tokens : ∀ t ∈ front, t.kind ≠ .done ∧ t.StandsIn text
  ordered : front.Pairwise fun t t' ↦ t.span.stop ≤ t'.span.start
  behind : ∀ t ∈ front, offset ≤ t.span.start
  gaps : ∀ gap ∈ gapsFrom offset (front ++ [endToken text]), IsGap text gap

/-- The gap behind a part of a text. -/
theorem isGap_append (before : List Char) {gap behind : List Char} (h : Gap gap behind) :
    IsGap (before ++ (gap ++ behind))
      ⟨byteLength before, byteLength before + byteLength gap⟩ where
  fits := {
    ordered := Nat.le_add_right _ _
    start := .of_append _ _
    stop := by
      rw [← List.append_assoc, ← Text.byteLength_append]
      exact .of_append _ _ }
  blank := by
    rw [Text.slice_append, ← List.append_assoc, ← Text.byteLength_append, Text.dropBytes_append]
    exact h

/-- The word behind a part of a text. -/
theorem standsIn_append (before behind : List Char) {word : List Char} {kind : TokenKind}
    (hword : word ≠ []) (h : kind.Spells word) :
    Token.StandsIn (before ++ (word ++ behind))
      ⟨kind, ⟨byteLength before, byteLength before + byteLength word⟩⟩ where
  nonempty := Nat.lt_add_of_pos_right (Text.byteLength_pos hword)
  fits := {
    ordered := Nat.le_add_right _ _
    start := .of_append _ _
    stop := by
      rw [← List.append_assoc, ← Text.byteLength_append]
      exact .of_append _ _ }
  spells := by
    rw [Text.slice_append]
    exact h

/-- **Tokens that are laid on the rest of a text tile it.** -/
theorem Laid.tile {offset : Nat} {cs : List Char} {ts : List Token} (h : Laid offset cs ts)
    (before : List Char) (hbefore : byteLength before = offset) :
    ∃ front, ts = front ++ [endToken (before ++ cs)] ∧ Tile (before ++ cs) offset front := by
  induction h generalizing before with
  | @done offset gap hgap =>
    subst hbefore
    have hgap' := isGap_append before hgap
    rw [List.append_nil] at hgap'
    refine ⟨[], by simp [endToken, Text.byteLength_append], by simp, .nil, by simp, ?_⟩
    simpa [gapsFrom, endToken, Text.byteLength_append] using hgap'
  | @token offset gap word rest kind ts hgap hword hspells hlaid ih =>
    subst hbefore
    obtain ⟨front, rfl, htile⟩ := ih (before ++ (gap ++ word)) (by
      simp [Text.byteLength_append, Nat.add_assoc])
    have htext : before ++ (gap ++ word) ++ rest = before ++ (gap ++ (word ++ rest)) := by simp
    rw [htext] at htile ⊢
    have htoken : Token.StandsIn (before ++ (gap ++ (word ++ rest)))
        ⟨kind, ⟨byteLength before + byteLength gap,
          byteLength before + byteLength gap + byteLength word⟩⟩ := by
      have h := standsIn_append (before ++ gap) rest hword hspells
      rwa [List.append_assoc, Text.byteLength_append] at h
    have hdone : kind ≠ .done := by
      rintro rfl
      exact hword hspells
    refine ⟨_ :: front, rfl, ?_⟩
    exact {
      tokens := List.forall_mem_cons.2 ⟨⟨hdone, htoken⟩, htile.tokens⟩
      ordered := List.pairwise_cons.2 ⟨htile.behind, htile.ordered⟩
      behind := List.forall_mem_cons.2 ⟨Nat.le_add_right _ _, fun t ht ↦ by
        have := htile.behind t ht
        omega⟩
      gaps := List.forall_mem_cons.2 ⟨isGap_append before hgap, htile.gaps⟩ }

/-- **Reading tokens loses nothing.**  The tokens of a body end with that of the end, on the empty
span behind it, and no other token is one.  Each of the others stands on at least one character of
the body, between two boundaries of it, and is spelled by what stands there, a name by its text;
they are in order, and none reaches into the next one.  In front of each of them and of the end
there is nothing but spaces, tabs, carriage returns, line feeds, comments up to the end of their
line, and closed comments. -/
theorem tokenize_lossless (source : String) :
    ∃ front, tokenize source =
        front ++ [⟨.done, ⟨byteLength source.toList, byteLength source.toList⟩⟩] ∧
      (∀ t ∈ front, t.kind ≠ .done ∧ t.StandsIn source.toList) ∧
      (front.Pairwise fun t t' ↦ t.span.stop ≤ t'.span.start) ∧
      (∀ t ∈ front, ∀ text, t.kind = .name text →
        text = String.ofList (slice source.toList t.span)) ∧
      ∀ gap ∈ gapsFrom 0 (tokenize source), IsGap source.toList gap := by
  obtain ⟨front, hfront, htile⟩ := (laid_tokensFrom 0 source.toList).tile [] rfl
  rw [List.nil_append] at hfront htile
  refine ⟨front, hfront, htile.tokens, htile.ordered, fun t ht text hname ↦ ?_, ?_⟩
  · have hspells := (htile.tokens t ht).2.spells
    rw [hname, TokenKind.Spells] at hspells
    rw [hspells, String.ofList_toList]
  · rw [tokenize, hfront]
    exact htile.gaps

end Dossier.Script
