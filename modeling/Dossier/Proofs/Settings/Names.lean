import Dossier.Proofs.Parse.Narrow
import Dossier.Settings

/-!
# Names of settings are words of bodies

Settings look at all characters of a text to tell whether it is a name, while a body is cut into tokens
by what stands at the start of what is left of it.  Both come to the same: a text is a name exactly if,
as a body, it is one word and nothing else (`isName_iff_word`).  A keyword counts as a name here, as it
does in settings.  The text may not be so long that places in it do not fit in 32 bits
(`narrowTokens?_of_long`).
-/

set_option autoImplicit false

namespace Dossier.Script

open Text (Span byteLength byteLength_append isPlainDigit isPlainLetter isLetter isNameStart
  isNameChar)

/-- The token is a name or a keyword. -/
def TokenKind.IsWord : TokenKind → Prop
  | .name _ | .keyword _ => True
  | _ => False

/-! ## Pieces that are words -/

/-- A plain digit starts no name. -/
theorem isNameStart_of_isPlainDigit {c : Char} (h : isPlainDigit c = true) :
    isNameStart c = false := by
  rw [isPlainDigit, Bool.and_eq_true, decide_eq_true_eq, decide_eq_true_eq] at h
  have hle : c.toNat ≤ 57 := h.2
  have hlow : c.toNat < 128 := by omega
  have hless (d : Char) (hd : 57 < d.toNat) : ¬ d ≤ c := fun hdc ↦ by
    have : d.toNat ≤ c.toNat := hdc
    omega
  have hletter : isLetter c = false := by
    rw [isLetter, if_pos hlow, isPlainLetter, decide_eq_false (hless 'a' (by decide)),
      decide_eq_false (hless 'A' (by decide))]
    rfl
  have hline : c ≠ '_' := by
    rintro rfl
    exact hless '_' (by decide) (Char.le_refl '_')
  rw [isNameStart, hletter, Bool.false_or, beq_eq_false_iff_ne]
  exact hline

/-- **What starts a name is read as a word**: it starts nothing else. -/
theorem piece_of_isNameStart {c : Char} (hc : isNameStart c = true) (cs : List Char) :
    piece c cs = namePiece c cs := by
  have hne (d : Char) (hd : isNameStart d = false) : c ≠ d := by
    rintro rfl
    exact Bool.false_ne_true (hd.symm.trans hc)
  have hdigit : isPlainDigit c = false := by
    rw [Bool.eq_false_iff]
    intro h
    exact Bool.false_ne_true ((isNameStart_of_isPlainDigit h).symm.trans hc)
  have hslash := hne '/' (by decide +kernel)
  simp [piece, isSpace, hne ' ' (by decide +kernel), hne '\t' (by decide +kernel),
    hne '\r' (by decide +kernel), hne '\n' (by decide +kernel), hne '"' (by decide +kernel), hslash,
    hdigit, hc]

theorem isWord_of_namePiece {c : Char} {cs : List Char} {kind : TokenKind}
    (h : (namePiece c cs).kind = some kind) : kind.IsWord := by
  rw [namePiece] at h
  dsimp only at h
  split at h <;> cases h <;> trivial

/-- **Nothing else is read as a word.** -/
theorem isNameStart_of_isWord {c : Char} {cs : List Char} {kind : TokenKind}
    (h : (piece c cs).kind = some kind) (hword : kind.IsWord) : isNameStart c = true := by
  rw [piece] at h
  split_ifs at h with hspace hfeed hline hblock hquote hdigit hstart
  · rw [commentPiece] at h
    split at h <;> cases h
    exact hword.elim
  · rw [stringPiece] at h
    dsimp only at h
    split at h <;> cases h <;> exact hword.elim
  · rw [numberPiece] at h
    dsimp only at h
    split at h
    · split at h <;> cases h <;> exact hword.elim
    · cases h
      exact hword.elim
  · exact hstart
  · rw [symbolPiece] at h
    split at h
    · cases h
      exact hword.elim
    · split at h <;> cases h <;> exact hword.elim

/-! ## Texts that are words -/

/-- The word that a name is, with the end behind it. -/
theorem exists_word_of_isName {s : String} (h : isName s = true) : ∃ kind : TokenKind,
    kind.IsWord ∧ tokenize s = [⟨kind, ⟨0, byteLength s.toList⟩⟩, endToken s.toList] := by
  rw [isName] at h
  cases hs : s.toList with
  | nil => simp [hs] at h
  | cons c cs =>
    rw [hs, Bool.and_eq_true, List.all_eq_true] at h
    obtain ⟨hstart, hrest⟩ := h
    have hpiece := piece_of_isNameStart hstart cs
    have hextra : (namePiece c cs).extra = cs.length := by
      rw [namePiece, List.takeWhile_eq_self_iff.2 hrest]
    obtain ⟨kind, hkind⟩ := Option.ne_none_iff_exists'.1 (kind_namePiece_ne_none c cs)
    refine ⟨kind, isWord_of_namePiece hkind, ?_⟩
    rw [tokenize, hs, tokensFrom, hpiece, hkind, hextra, tokensFrom_skip]
    simp [tokensFrom, endToken, byteLength]

/-- A text of which a word covers all is a name. -/
theorem isName_of_covered {s : String} {kind : TokenKind} (hword : kind.IsWord)
    (h : ⟨kind, ⟨0, byteLength s.toList⟩⟩ ∈ tokenize s) : isName s = true := by
  rcases eq_piece_of_mem_tokensFrom h with hend | ⟨before, c, rest, hs, hpiece, hspan⟩
  · obtain rfl : kind = .done := congrArg Token.kind hend
    exact hword.elim
  · rw [Nat.zero_add, hs, byteLength_append] at hspan
    obtain ⟨hstart, hstop⟩ := Span.mk.inj hspan
    -- the word starts the text, and no character is left behind it
    obtain rfl := Text.eq_nil_of_byteLength hstart.symm
    have hstart := isNameStart_of_isWord hpiece hword
    have hrest : rest.dropWhile isNameChar = [] := by
      rw [piece_of_isNameStart hstart, namePiece, take_takeWhile] at hstop
      have hparts := congrArg byteLength (rest.takeWhile_append_dropWhile (p := isNameChar))
      rw [byteLength_append] at hparts
      simp only [byteLength] at hstop
      exact Text.eq_nil_of_byteLength (by omega)
    rw [isName, hs, List.nil_append, Bool.and_eq_true, List.all_eq_true]
    exact ⟨hstart, List.dropWhile_eq_nil_iff.1 hrest⟩

/-- **Settings and bodies agree on names.**  A text of fewer than `2 ^ 32` bytes is a name exactly if
its tokens, as they are kept, are one name or one keyword, which stands on all of the text, and the
end. -/
theorem isName_iff_word {s : String} (hshort : byteLength s.toList < UInt32.size) :
    isName s = true ↔ ∃ kind : TokenKind, kind.IsWord ∧
      narrowTokens? s = some [⟨kind, ⟨0, byteLength s.toList⟩⟩, endToken s.toList] := by
  rw [narrowTokens?_eq hshort]
  constructor
  · intro h
    obtain ⟨kind, hword, htokens⟩ := exists_word_of_isName h
    exact ⟨kind, hword, congrArg some htokens⟩
  · rintro ⟨kind, hword, htokens⟩
    refine isName_of_covered hword ?_
    rw [Option.some.inj htokens]
    exact List.mem_cons_self

/-- A name with a letter of two bytes, a keyword, and a text that is neither. -/
theorem isName_iff_word_cases :
    (∃ kind : TokenKind, kind.IsWord ∧ narrowTokens? "été_1" = some [⟨kind, ⟨0, 7⟩⟩, ⟨.done, ⟨7, 7⟩⟩]) ∧
    (∃ kind : TokenKind, kind.IsWord ∧ narrowTokens? "while" = some [⟨kind, ⟨0, 5⟩⟩, ⟨.done, ⟨5, 5⟩⟩]) ∧
    isName "1st" = false := by
  refine ⟨?_, ?_, ?_⟩
  · exact (isName_iff_word (s := "été_1") (by decide +kernel)).1 (by decide +kernel)
  · exact (isName_iff_word (s := "while") (by decide +kernel)).1 (by decide +kernel)
  · rw [Bool.eq_false_iff, Ne, isName_iff_word (by decide +kernel),
      narrowTokens?_eq (by decide +kernel)]
    rintro ⟨kind, hword, htokens⟩
    have htwo : (tokenize "1st").length = 2 := congrArg List.length (Option.some.inj htokens)
    have hthree : (tokenize "1st").length = 3 := by decide +kernel
    cases htwo.symm.trans hthree

/-! ## Names that are too long -/

theorem byteLength_replicate_a (n : Nat) : byteLength (List.replicate n 'a') = n := by
  induction n with
  | zero => rfl
  | succ n ih =>
    rw [List.replicate_succ, byteLength, ih, Nat.add_comm]
    rfl

/-- Keywords are short. -/
theorem byteLength_of_ofSpelling? {text : String} {word : Keyword}
    (h : Keyword.ofSpelling? text = some word) : byteLength text.toList ≤ 6 := by
  rw [← Keyword.spelling_of_ofSpelling? h]
  cases word <;> decide +kernel

/-- The end of a text of one letter more than there are places is kept as the end of its first one. -/
theorem narrow_of_long {m : Nat} (hm : m = UInt32.size) :
    Span.narrow ⟨0, m + 1⟩ = ⟨0, 1⟩ ∧ Span.narrow ⟨m + 1, m + 1⟩ = ⟨1, 1⟩ := by
  subst hm
  decide

/-- All letters are no keyword, and what is kept of them is the first one. -/
theorem narrowWord?_of_long {m : Nat} (hm : m = UInt32.size) :
    narrowWord? (List.replicate (m + 1) 'a') ⟨0, m + 1⟩ = some (.name "a") := by
  have hlength := byteLength_replicate_a (m + 1)
  have hall := Text.slice?_append [] (List.replicate (m + 1) 'a') []
  have hfirst := Text.slice?_append [] ['a'] (List.replicate m 'a')
  have hkeyword : Keyword.ofSpelling? (String.ofList (List.replicate (m + 1) 'a')) = none := by
    refine Option.eq_none_iff_forall_ne_some.2 fun word hw ↦ ?_
    have hword := byteLength_of_ofSpelling? hw
    rw [String.toList_ofList, hlength, hm] at hword
    exact absurd hword (by decide)
  simp only [List.append_nil, List.nil_append, byteLength, hlength, Nat.zero_add] at hall
  rw [narrowWord?, (narrow_of_long hm).1, Option.bind_eq_bind, hall, Option.bind_some, hkeyword]
  exact congrArg (Option.map fun text ↦ TokenKind.name (String.ofList text)) hfirst

/-- **The bound on names cannot be left out.**  A name of `2 ^ 32 + 1` letters is kept as that of its
first letter. -/
theorem narrowTokens?_of_long {n : Nat} (hn : n = UInt32.size + 1) :
    isName (String.ofList (List.replicate n 'a')) = true ∧
    narrowTokens? (String.ofList (List.replicate n 'a')) =
      some [⟨.name "a", ⟨0, 1⟩⟩, ⟨.done, ⟨1, 1⟩⟩] := by
  obtain ⟨m, rfl⟩ : ∃ m, n = m + 1 := ⟨UInt32.size, hn⟩
  have hm : m = UInt32.size := Nat.succ.inj hn
  have hname : isName (String.ofList (List.replicate (m + 1) 'a')) = true := by
    rw [isName, String.toList_ofList, List.replicate_succ, Bool.and_eq_true, List.all_eq_true]
    refine ⟨by decide +kernel, fun c hc ↦ ?_⟩
    rw [List.eq_of_mem_replicate hc]
    decide +kernel
  refine ⟨hname, ?_⟩
  obtain ⟨kind, hword, htokens⟩ := exists_word_of_isName hname
  have hlength := byteLength_replicate_a (m + 1)
  rw [String.toList_ofList, hlength] at htokens
  have hnarrow : kind.narrow? (List.replicate (m + 1) 'a') ⟨0, m + 1⟩ = some (.name "a") := by
    cases kind with
    | name text | keyword word => exact narrowWord?_of_long hm
    | _ => exact hword.elim
  obtain ⟨hwide, hend⟩ := narrow_of_long hm
  rw [narrowTokens?, htokens, String.toList_ofList, List.mapM_cons, List.mapM_cons, List.mapM_nil,
    endToken, hlength, Token.narrow?, Token.narrow?, hnarrow, hwide, hend]
  rfl

end Dossier.Script
