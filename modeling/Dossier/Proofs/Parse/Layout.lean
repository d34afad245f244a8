import Dossier.Proofs.Parse.Narrow
import Dossier.Proofs.Text.Blanks

/-!
# Layout

What stands between tokens makes no difference, as long as something does.

* `kindsOf` is what is read of a text without the places, and `Gap.kindsOf_append` says that a gap
  in front of a text changes nothing of it.
* `piece_append` says that a blank behind a text ends the piece at its start: longer text behind it
  makes no longer piece.  `piece_of_append` says that the piece does not need the blank either, if it
  does not reach it.
* `Joined` joins words by separators, each of which starts with a blank; `tokenize_joined` is the
  result, that the words are read.
-/

set_option autoImplicit false

namespace Dossier.Script

open Text (byteLength isBlank isPlainDigit isNameStart isNameChar)

/-! ## What is read, without the places -/

/-- The kinds of the tokens of a text. -/
def kindsOf (cs : List Char) : List TokenKind := (tokensFrom 0 0 cs).map Token.kind

/-- The kinds do not depend on where the text starts. -/
theorem map_kind_tokensFrom (skip offset offset' : Nat) (cs : List Char) :
    (tokensFrom skip offset cs).map Token.kind = (tokensFrom skip offset' cs).map Token.kind := by
  induction cs generalizing skip offset offset' with
  | nil => cases skip <;> rfl
  | cons c cs ih =>
    cases skip with
    | succ skip => exact ih skip _ _
    | zero =>
      rw [tokensFrom, tokensFrom]
      cases (piece c cs).kind with
      | none => exact ih _ _ _
      | some kind => exact congrArg (kind :: ·) (ih _ _ _)

/-- **A text is read piece by piece.** -/
theorem kindsOf_cons (c : Char) (cs : List Char) :
    kindsOf (c :: cs) =
      (piece c cs).kind.toList ++ kindsOf (cs.drop (piece c cs).extra) := by
  have hrest := map_kind_tokensFrom 0 (0 + c.utf8Size + byteLength (cs.take (piece c cs).extra)) 0
    (cs.drop (piece c cs).extra)
  rw [← tokensFrom_skip] at hrest
  rw [kindsOf, tokensFrom, kindsOf, ← hrest]
  cases (piece c cs).kind <;> rfl

/-! ## Gaps -/

/-- Spaces at the start are not read. -/
theorem kindsOf_dropWhile (cs : List Char) : kindsOf (cs.dropWhile isSpace) = kindsOf cs := by
  cases cs with
  | nil => rfl
  | cons c cs =>
    by_cases hc : isSpace c = true
    · rw [List.dropWhile_cons_of_pos hc, kindsOf_cons, piece, if_pos hc, drop_takeWhile]
      rfl
    · rw [List.dropWhile_cons_of_neg hc]

theorem kindsOf_blank {c : Char} (hc : IsGapChar c) (cs : List Char) :
    kindsOf (c :: cs) = kindsOf cs := by
  by_cases hspace : isSpace c = true
  · rw [← kindsOf_dropWhile (c :: cs), List.dropWhile_cons_of_pos hspace, kindsOf_dropWhile]
  · obtain rfl : c = '\n' := by
      rcases hc with rfl | rfl | rfl | rfl
      · exact absurd rfl hspace
      · exact absurd rfl hspace
      · exact absurd rfl hspace
      · rfl
    rw [kindsOf_cons]
    rfl

theorem kindsOf_line {text rest : List Char} (htext : '\n' ∉ text)
    (hrest : ∀ c, rest.head? = some c → c = '\n') :
    kindsOf ('/' :: '/' :: (text ++ rest)) = kindsOf rest := by
  have hline : '\n' ∉ '/' :: text := by simp [htext]
  have htake := takeWhile_line hline hrest
  have hpiece : piece '/' ('/' :: (text ++ rest)) = ⟨none, ('/' :: text).length⟩ := by
    rw [← htake]
    simp [piece, isSpace]
  rw [kindsOf_cons, hpiece, ← List.cons_append, List.drop_left]
  rfl

/-- A comment is closed by the first star with a slash behind it. -/
theorem commentEnd?_append {text : List Char} (h : ¬ ['*', '/'] <:+: text) (rest : List Char) :
    commentEnd? (text ++ '*' :: '/' :: rest) = some (text.length + 2) := by
  induction text with
  | nil => rfl
  | cons c text ih =>
    rw [List.infix_cons_iff, not_or] at h
    rw [List.cons_append, commentEnd?, ih h.2, Option.map_some]
    · rfl
    · -- the slash would be the next character of the text
      rintro tail rfl htail
      cases text with
      | nil => simp at htail
      | cons d text =>
        obtain ⟨rfl, -⟩ := List.cons.inj htail
        exact h.1 ⟨text, rfl⟩

theorem kindsOf_block {text : List Char} (h : ¬ ['*', '/'] <:+: text) (rest : List Char) :
    kindsOf ('/' :: '*' :: (text ++ '*' :: '/' :: rest)) = kindsOf rest := by
  have hpiece : piece '/' ('*' :: (text ++ '*' :: '/' :: rest)) = ⟨none, text.length + 3⟩ := by
    simp [piece, isSpace, commentPiece, commentEnd?_append h]
  have hdrop : ('*' :: (text ++ '*' :: '/' :: rest)).drop (text.length + 3) = rest := by
    rw [List.drop_succ_cons, List.drop_length_add_append]
    rfl
  rw [kindsOf_cons, hpiece, hdrop]
  rfl

/-- **A gap is not read.** -/
theorem Gap.kindsOf_append {gap behind : List Char} (h : Gap gap behind) :
    kindsOf (gap ++ behind) = kindsOf behind := by
  induction h with
  | nil => rfl
  | blank hc _ ih => rw [List.cons_append, kindsOf_blank hc, ih]
  | line htext hhead _ ih =>
    rw [List.cons_append, List.cons_append, List.append_assoc, kindsOf_line htext hhead, ih]
  | block htext _ ih =>
    rw [List.cons_append, List.cons_append, List.append_assoc, List.cons_append, List.cons_append,
      kindsOf_block htext, ih]

/-! ## Pieces with a blank behind them -/

variable {b : Char}

/-- A run of characters ends at a character that is not one of them, whatever is behind it. -/
theorem takeWhile_append_cons {p : Char → Bool} (hb : p b = false) (cs rest : List Char) :
    (cs ++ b :: rest).takeWhile p = cs.takeWhile p := by
  rw [List.takeWhile_append]
  split
  · rename_i hall
    rw [List.takeWhile_cons_of_neg (by simp [hb]), List.append_nil]
    exact ((List.takeWhile_prefix p).eq_of_length hall).symm
  · rfl

theorem dropWhile_append_cons {p : Char → Bool} (hb : p b = false) (cs rest : List Char) :
    (cs ++ b :: rest).dropWhile p = cs.dropWhile p ++ b :: rest := by
  rw [← drop_takeWhile, takeWhile_append_cons hb, ← drop_takeWhile, List.drop_append_of_le_length]
  exact (List.takeWhile_prefix p).length_le

theorem numberPiece_fraction {c d : Char} {cs ds : List Char}
    (h : cs.dropWhile isPlainDigit = '.' :: d :: ds) (hd : isPlainDigit d = true) :
    numberPiece c cs =
      ⟨some (.float (String.ofList
          (c :: cs.takeWhile isPlainDigit ++ '.' :: d :: ds.takeWhile isPlainDigit))),
        (cs.takeWhile isPlainDigit).length + 1 + ((ds.takeWhile isPlainDigit).length + 1)⟩ := by
  rw [numberPiece, h]
  simp [hd]

theorem numberPiece_whole {c : Char} {cs : List Char}
    (h : ∀ d ds, cs.dropWhile isPlainDigit = '.' :: d :: ds → isPlainDigit d = false) :
    numberPiece c cs =
      ⟨some (.int (String.ofList (c :: cs.takeWhile isPlainDigit))),
        (cs.takeWhile isPlainDigit).length⟩ := by
  rw [numberPiece]
  dsimp only
  split
  · rename_i d ds hds
    simp [h d ds hds]
  · simp

theorem isBlank_of_isGapChar {c : Char} (h : IsGapChar c) : isBlank c = true := by
  rcases h with rfl | rfl | rfl | rfl <;> decide

/-- A blank is none of the characters that are not. -/
theorem ne_of_isBlank {b c : Char} (hb : isBlank b = true) (hc : isBlank c = false) : b ≠ c := by
  rintro rfl
  rw [hb] at hc
  cases hc

/-- A comment is read as a token only where it has no end. -/
theorem exists_invalid_of_commentPiece {cs : List Char} {kind : TokenKind}
    (h : (commentPiece cs).kind = some kind) : ∃ text, kind = .invalid text := by
  rw [commentPiece] at h
  split at h
  · cases h
  · exact ⟨_, (Option.some.inj h).symm⟩

section Blank

variable (hb : isBlank b = true)

include hb

theorem double?_of_isBlank (c : Char) : double? c b = none := by
  have hequal := ne_of_isBlank hb (c := '=') (by decide)
  have hand := ne_of_isBlank hb (c := '&') (by decide)
  have hor := ne_of_isBlank hb (c := '|') (by decide)
  unfold double?
  split <;> simp_all

theorem namePiece_append (c : Char) (cs rest : List Char) :
    namePiece c (cs ++ b :: rest) = namePiece c cs := by
  simp only [namePiece, takeWhile_append_cons (Text.isNameChar_of_isBlank hb)]

theorem numberPiece_append (c : Char) (cs rest : List Char) :
    numberPiece c (cs ++ b :: rest) = numberPiece c cs := by
  have hdigit := Text.isPlainDigit_of_isBlank hb
  have htake := takeWhile_append_cons hdigit cs rest
  have hdrop := dropWhile_append_cons hdigit cs rest
  by_cases hfraction : ∃ d ds, cs.dropWhile isPlainDigit = '.' :: d :: ds ∧ isPlainDigit d = true
  · obtain ⟨d, ds, hds, hd⟩ := hfraction
    rw [hds, List.cons_append, List.cons_append] at hdrop
    rw [numberPiece_fraction hdrop hd, numberPiece_fraction hds hd, htake,
      takeWhile_append_cons hdigit]
  · have hnone : ∀ d ds, cs.dropWhile isPlainDigit = '.' :: d :: ds → isPlainDigit d = false :=
      fun d ds hds ↦ Bool.eq_false_iff.2 fun hd ↦ hfraction ⟨d, ds, hds, hd⟩
    rw [numberPiece_whole hnone, numberPiece_whole, htake]
    -- the blank is no point, and no digit behind a point
    intro d ds hds
    rw [hdrop] at hds
    cases hcs : cs.dropWhile isPlainDigit with
    | nil =>
      rw [hcs] at hds
      exact absurd (List.cons.inj hds).1 (ne_of_isBlank hb (by decide))
    | cons e es =>
      rw [hcs] at hds
      cases es with
      | nil =>
        cases hds
        exact hdigit
      | cons e' es =>
        cases hds
        exact hnone d es hcs

theorem symbolPiece_append (c : Char) (cs rest : List Char) :
    symbolPiece c (cs ++ b :: rest) = symbolPiece c cs := by
  cases cs with
  | nil => simp [symbolPiece, double?_of_isBlank hb]
  | cons d cs => rfl

theorem head?_append_cons {d : Char} (hd : isBlank d = false) (cs rest : List Char) :
    (cs ++ b :: rest).head? = some d ↔ cs.head? = some d := by
  cases cs with
  | nil => simpa using ne_of_isBlank hb hd
  | cons e es => rfl

/-- **A blank ends the piece in front of it**, if that is a token and not an invalid one. -/
theorem piece_append {c : Char} {cs : List Char} {kind : TokenKind}
    (hkind : (piece c cs).kind = some kind) (hvalid : ∀ text, kind ≠ .invalid text)
    (rest : List Char) : piece c (cs ++ b :: rest) = piece c cs := by
  have hslash := head?_append_cons hb (d := '/') (by decide) cs rest
  have hstar := head?_append_cons hb (d := '*') (by decide) cs rest
  rw [piece] at hkind
  simp only [piece, hslash, hstar]
  split_ifs at hkind ⊢ with hspace hfeed hline hblock hquote hdigit hstart
  · -- a comment is no token, and one that is not closed is invalid
    obtain ⟨text, rfl⟩ := exists_invalid_of_commentPiece hkind
    exact absurd rfl (hvalid text)
  · rcases stringPiece_cases cs with ⟨inner, tail, rfl, hinner, -⟩ | ⟨n, -, hpiece⟩
    · rw [List.append_assoc, List.cons_append, stringPiece_closed hinner,
        stringPiece_closed hinner]
    · rw [hpiece] at hkind
      cases hkind
      exact absurd rfl (hvalid _)
  · exact numberPiece_append hb c cs rest
  · exact namePiece_append hb c cs rest
  · exact symbolPiece_append hb c cs rest

/-- **A token that ends in front of a blank does not need it.** -/
theorem piece_of_append {c : Char} {cs rest : List Char} {kind : TokenKind}
    (hkind : (piece c (cs ++ b :: rest)).kind = some kind) (hvalid : ∀ text, kind ≠ .invalid text)
    (hends : (piece c (cs ++ b :: rest)).extra ≤ cs.length) :
    piece c cs = piece c (cs ++ b :: rest) := by
  have hslash := head?_append_cons hb (d := '/') (by decide) cs rest
  have hstar := head?_append_cons hb (d := '*') (by decide) cs rest
  simp only [piece, hslash, hstar] at hkind hends ⊢
  split_ifs at hkind hends ⊢ with hspace hfeed hline hblock hquote hdigit hstart
  · obtain ⟨text, rfl⟩ := exists_invalid_of_commentPiece hkind
    exact absurd rfl (hvalid text)
  · rcases stringPiece_cases (cs ++ b :: rest) with
      ⟨inner, tail, hcs, hinner, hpiece⟩ | ⟨n, -, hpiece⟩
    · rw [hpiece] at hends
      -- the closing quote is within the text in front of the blank
      obtain ⟨tail', rfl⟩ : ∃ tail', cs = inner ++ '"' :: tail' := by
        have hprefix : inner ++ ['"'] <+: cs := by
          refine List.prefix_of_prefix_length_le ?_ (List.prefix_append cs (b :: rest)) (by simpa)
          exact ⟨tail, by rw [hcs, List.append_assoc, List.singleton_append]⟩
        obtain ⟨tail', rfl⟩ := hprefix
        exact ⟨tail', by rw [List.append_assoc, List.singleton_append]⟩
      rw [hpiece, stringPiece_closed hinner]
    · rw [hpiece] at hkind
      cases hkind
      exact absurd rfl (hvalid _)
  · exact (numberPiece_append hb c cs rest).symm
  · exact (namePiece_append hb c cs rest).symm
  · exact (symbolPiece_append hb c cs rest).symm

end Blank

/-! ## Pieces and the end of the text -/

theorem extra_numberPiece_le (c : Char) (cs : List Char) :
    (numberPiece c cs).extra ≤ cs.length := by
  have hlength := congrArg List.length
    (List.takeWhile_append_dropWhile (p := isPlainDigit) (l := cs))
  rw [List.length_append] at hlength
  by_cases hfraction : ∃ d ds, cs.dropWhile isPlainDigit = '.' :: d :: ds ∧ isPlainDigit d = true
  · obtain ⟨d, ds, hds, hd⟩ := hfraction
    have htake := (List.takeWhile_prefix (l := ds) isPlainDigit).length_le
    rw [hds, List.length_cons, List.length_cons] at hlength
    rw [numberPiece_fraction hds hd]
    show _ + 1 + (_ + 1) ≤ _
    omega
  · rw [numberPiece_whole fun d ds hds ↦ Bool.eq_false_iff.2 fun hd ↦ hfraction ⟨d, ds, hds, hd⟩]
    exact (List.takeWhile_prefix isPlainDigit).length_le

/-- **No piece reaches behind the end of the text.** -/
theorem extra_piece_le (c : Char) (cs : List Char) : (piece c cs).extra ≤ cs.length := by
  rw [piece]
  split_ifs with hspace hfeed hline hblock hquote hdigit hstart
  · exact (List.takeWhile_prefix isSpace).length_le
  · exact Nat.zero_le _
  · exact (List.takeWhile_prefix _).length_le
  · rw [commentPiece]
    split
    · rename_i n hend
      obtain ⟨text, rest, hcs, rfl, -⟩ := commentEnd?_eq_some hend
      have hlength := congrArg List.length hcs
      simp only [List.length_drop, List.length_append, List.length_cons] at hlength
      show _ + 1 ≤ _
      omega
    · exact Nat.le_refl _
  · rcases stringPiece_cases cs with ⟨inner, rest, rfl, -, hpiece⟩ | ⟨n, hn, hpiece⟩
    · rw [hpiece]
      simp
    · rw [hpiece]
      exact hn
  · exact extra_numberPiece_le c cs
  · exact (List.takeWhile_prefix isNameChar).length_le
  · rw [symbolPiece]
    split
    · rename_i mark hmark
      obtain ⟨d, hd, -⟩ := Option.bind_eq_some_iff.1 hmark
      obtain ⟨rest, rfl⟩ := List.head?_eq_some_iff.1 hd
      simp
    · split <;> exact Nat.zero_le _

/-! ## Words and separators -/

/-- The text stands for one token when it stands alone, which has the kind and is not invalid. -/
structure IsWord (word : String) (kind : TokenKind) : Prop where
  alone : tokenize word = [⟨kind, ⟨0, byteLength word.toList⟩⟩, endToken word.toList]
  valid : ∀ text, kind ≠ .invalid text

/-- What can follow a blank between two words: blanks and line feeds, comments up to the end of
their line and with it, and closed comments. -/
inductive Filler : List Char → Prop
  | nil : Filler []
  | blank {c : Char} {filler : List Char} : IsGapChar c → Filler filler → Filler (c :: filler)
  | line {text filler : List Char} :
    '\n' ∉ text → Filler filler → Filler ('/' :: '/' :: (text ++ '\n' :: filler))
  | block {text filler : List Char} :
    ¬ ['*', '/'] <:+: text → Filler filler → Filler ('/' :: '*' :: (text ++ '*' :: '/' :: filler))

/-- Words of the kinds, one after the other, with separators between them, each of which starts with
a blank or a line feed.  There may be one behind the last word as well. -/
inductive Joined : List TokenKind → List Char → Prop
  | nil : Joined [] []
  | last {word : String} {kind : TokenKind} : IsWord word kind → Joined [kind] word.toList
  | next {word : String} {kind : TokenKind} {b : Char} {filler text : List Char}
    {kinds : List TokenKind} :
    IsWord word kind → IsGapChar b → Filler filler → Joined kinds text →
    Joined (kind :: kinds) (word.toList ++ b :: (filler ++ text))

/-- A filler is a gap in front of every text. -/
theorem Filler.gap {filler : List Char} (h : Filler filler) (behind : List Char) :
    Gap filler behind := by
  induction h with
  | nil => exact .nil behind
  | blank hc _ ih => exact .blank hc ih
  | line htext _ ih =>
    have hfeed : IsGapChar '\n' := .inr (.inr (.inr rfl))
    exact .line htext (by simp) (.blank hfeed ih)
  | block htext _ ih => exact .block htext ih

namespace IsWord

variable {word : String} {kind : TokenKind} (h : IsWord word kind)

include h

/-- A word is one piece. -/
theorem exists_piece : ∃ c cs, word.toList = c :: cs ∧ (piece c cs).kind = some kind ∧
    (piece c cs).extra = cs.length := by
  have hmem : ⟨kind, ⟨0, byteLength word.toList⟩⟩ ∈ tokenize word := by simp [h.alone]
  rcases eq_piece_of_mem_tokensFrom hmem with hdone | ⟨before, c, cs, hword, hkind, hspan⟩
  · -- an empty text has no token in front of its end
    have hlength : 0 = byteLength word.toList := by simpa using congrArg (·.span.start) hdone
    have halone := h.alone
    rw [tokenize, Text.eq_nil_of_byteLength hlength.symm] at halone
    cases halone
  · simp only [Nat.zero_add, Text.Span.mk.injEq] at hspan
    obtain ⟨hstart, hstop⟩ := hspan
    obtain rfl := Text.eq_nil_of_byteLength hstart.symm
    refine ⟨c, cs, hword, hkind, Nat.le_antisymm (extra_piece_le c cs) (List.drop_eq_nil_iff.1 ?_)⟩
    -- the span is that of the whole text, so that nothing is left behind the piece
    refine Text.eq_nil_of_byteLength ?_
    have hsplit := Text.byteLength_append (c :: cs.take (piece c cs).extra)
      (cs.drop (piece c cs).extra)
    rw [List.cons_append, List.take_append_drop] at hsplit
    rw [hword, List.nil_append, hsplit] at hstop
    simp only [byteLength, Nat.zero_add] at hstop
    omega

/-- **A word with a blank behind it is read as it is alone.** -/
theorem kindsOf_append {b : Char} (hb : IsGapChar b) (rest : List Char) :
    kindsOf (word.toList ++ b :: rest) = kind :: kindsOf rest := by
  obtain ⟨c, cs, hword, hkind, hextra⟩ := h.exists_piece
  rw [hword, List.cons_append, kindsOf_cons,
    piece_append (isBlank_of_isGapChar hb) hkind h.valid, hkind, hextra, List.drop_left,
    kindsOf_blank hb]
  rfl

end IsWord

/-- Of joined words, the words are read. -/
theorem Joined.kindsOf_eq {kinds : List TokenKind} {text : List Char} (h : Joined kinds text) :
    kindsOf text = kinds ++ [.done] := by
  induction h with
  | nil => rfl
  | last hword => exact congrArg (List.map Token.kind) hword.alone
  | next hword hb hfiller _ ih =>
    rw [hword.kindsOf_append hb, (hfiller.gap _).kindsOf_append, ih, List.cons_append]

/-- **Layout does not matter.**  Of words that stand for one token each when they stand alone, and
that are joined by any separators to a text of fewer than `2 ^ 32` bytes, these tokens are read and
kept, in order, and then the end.  A separator starts with a blank or a line feed, and may go on with
more of them and with comments that end. -/
theorem tokenize_joined {kinds : List TokenKind} {text : String} (h : Joined kinds text.toList)
    (hshort : byteLength text.toList < UInt32.size) :
    ∃ tokens, narrowTokens? text = some tokens ∧ tokens.map Token.kind = kinds ++ [.done] :=
  ⟨tokenize text, narrowTokens?_eq hshort, h.kindsOf_eq⟩

/-- A number and a point that are no fraction, and a slash and a literal that open no comment. -/
def spacedText : String := "7 .\t/* 1 * 2 **/x // y / z\n/\n\"//\""

/-- It is read as its words. -/
theorem spacedText_read :
    Joined [.int "7", .symbol .dot, .name "x", .symbol .slash, .string "//"] spacedText.toList ∧
    byteLength spacedText.toList < UInt32.size ∧
    ∃ tokens, narrowTokens? spacedText = some tokens ∧ tokens.map Token.kind =
      [.int "7", .symbol .dot, .name "x", .symbol .slash, .string "//", .done] := by
  have hjoined : Joined [.int "7", .symbol .dot, .name "x", .symbol .slash, .string "//"]
      spacedText.toList := by
    have htext : spacedText.toList =
        "7".toList ++ ' ' :: ([] ++ (".".toList ++ '\t' :: ("/* 1 * 2 **/".toList ++ ("x".toList ++
          ' ' :: ("// y / z\n".toList ++ ("/".toList ++ '\n' :: ([] ++ "\"//\"".toList))))))) := by
      decide +kernel
    rw [htext]
    refine .next ⟨by decide +kernel, nofun⟩ (.inl rfl) .nil ?_
    refine .next ⟨by decide +kernel, nofun⟩ (.inr (.inl rfl)) ?_ ?_
    · exact @Filler.block " 1 * 2 *".toList [] (by decide +kernel) .nil
    refine .next ⟨by decide +kernel, nofun⟩ (.inl rfl) ?_ ?_
    · exact @Filler.line " y / z".toList [] (by decide +kernel) .nil
    refine .next ⟨by decide +kernel, nofun⟩ (.inr (.inr (.inr rfl))) .nil ?_
    exact .last ⟨by decide +kernel, nofun⟩
  have hshort : byteLength spacedText.toList < UInt32.size := by decide +kernel
  exact ⟨hjoined, hshort, tokenize_joined hjoined hshort⟩

end Dossier.Script
