import Dossier.Proofs.Parse.Tokens
import Dossier.Script.Token.Narrow

/-!
# Tokens of bodies that are not too long

In a body of fewer than `2 ^ 32` bytes nothing is lost by keeping places in 32 bits.

* `slice?_eq_slice` and `slice?_append` say what is taken at a place whose ends are boundaries.
* `narrow?_of_mem` keeps one token: it stands in the body, so that the text at its place is the one that
  it was read from, and a keyword is still one.
* `narrowTokens?_eq` is the result for all tokens.
-/

set_option autoImplicit false

namespace Dossier.Text

variable {text : List Char} {s : Span}

theorem IsBoundary.byteLength_takeBytes {n : Nat} (h : IsBoundary text n) :
    byteLength (takeBytes n text) = n := by
  obtain ⟨before, behind, rfl, rfl⟩ := h
  rw [takeBytes_append]

/-- What is taken at a place that fits is what stands there. -/
theorem slice?_eq_slice (hs : s.Fits text) : slice? text s = some (slice text s) :=
  if_pos ⟨hs.ordered, hs.start.byteLength_takeBytes, hs.stop.byteLength_takeBytes⟩

theorem fits_append (before middle behind : List Char) :
    Span.Fits (before ++ (middle ++ behind))
      ⟨byteLength before, byteLength before + byteLength middle⟩ where
  ordered := Nat.le_add_right _ _
  start := .of_append _ _
  stop := by
    rw [← List.append_assoc, ← byteLength_append]
    exact .of_append _ _

theorem slice?_append (before middle behind : List Char) :
    slice? (before ++ (middle ++ behind))
      ⟨byteLength before, byteLength before + byteLength middle⟩ = some middle := by
  rw [slice?_eq_slice (fits_append before middle behind), slice_append]

/-- A place in a text that is not too long is kept as it is. -/
theorem Span.Fits.narrow_eq (hs : s.Fits text) (hshort : byteLength text < UInt32.size) :
    s.narrow = s := by
  have hstart := Nat.lt_of_le_of_lt hs.start.le hshort
  have hstop := Nat.lt_of_le_of_lt hs.stop.le hshort
  rw [Span.narrow, Nat.mod_eq_of_lt hstart, Nat.mod_eq_of_lt hstop]

end Dossier.Text

namespace Dossier.Script

open Text (Span byteLength slice slice?)

/-! ## Names and keywords -/

theorem Keyword.ofSpelling?_spelling (word : Keyword) : ofSpelling? word.spelling = some word := by
  cases word <;> decide +kernel

/-- A name is no keyword. -/
theorem ofSpelling?_of_namePiece {c : Char} {cs : List Char} {text : String}
    (h : (namePiece c cs).kind = some (.name text)) : Keyword.ofSpelling? text = none := by
  simp only [namePiece, Option.some.injEq] at h
  split at h
  · cases h
  · rename_i hnone
    cases h
    exact hnone

theorem ofSpelling?_of_piece {c : Char} {cs : List Char} {text : String}
    (h : (piece c cs).kind = some (.name text)) : Keyword.ofSpelling? text = none := by
  rw [piece] at h
  split_ifs at h with hspace hfeed hline hblock hquote hdigit hstart
  · rw [commentPiece] at h
    split at h <;> cases h
  · rw [stringPiece] at h
    dsimp only at h
    split at h <;> cases h
  · rw [numberPiece] at h
    dsimp only at h
    split at h
    · split at h <;> cases h
    · cases h
  · exact ofSpelling?_of_namePiece h
  · rw [symbolPiece] at h
    split at h
    · cases h
    · split at h <;> cases h

theorem ofSpelling?_of_mem {source text : String} {span : Span}
    (h : ⟨.name text, span⟩ ∈ tokenize source) : Keyword.ofSpelling? text = none := by
  rcases eq_piece_of_mem_tokensFrom h with heq | ⟨before, c, rest, -, hkind, -⟩
  · cases heq
  · exact ofSpelling?_of_piece hkind

/-! ## Tokens -/

/-- The inside of a literal is taken off by a place that leaves out the quotes. -/
theorem slice?_inside {body inner : List Char} {span : Span} (hfits : span.Fits body)
    (hslice : slice body span = '"' :: inner ++ ['"']) :
    slice? body ⟨span.start + 1, span.stop - 1⟩ = some inner := by
  obtain ⟨before, stretch, behind, rfl, hstart, hstop⟩ := hfits.exists_parts
  have hspan : span = ⟨byteLength before, byteLength before + byteLength stretch⟩ := by
    rw [hstart] at hstop ⊢
    rw [hstop]
  rw [hspan, Text.slice_append] at hslice
  subst hslice
  have hquote : byteLength ['"'] = 1 := by decide
  have hinside := Text.slice?_append (before ++ ['"']) inner ('"' :: behind)
  have hbody : before ++ ['"'] ++ (inner ++ '"' :: behind) =
      before ++ ('"' :: inner ++ ['"'] ++ behind) := by simp
  have hlength : byteLength ('"' :: inner ++ ['"']) = 1 + byteLength inner + 1 := by
    rw [Text.byteLength_append, hquote, byteLength, Nat.add_right_cancel_iff]
    rfl
  rw [hbody, Text.byteLength_append, hquote] at hinside
  rw [hspan, hlength]
  show slice? _ ⟨byteLength before + 1, byteLength before + (1 + byteLength inner + 1) - 1⟩ = _
  rw [← Nat.add_assoc, Nat.add_sub_cancel, ← Nat.add_assoc]
  exact hinside

/-- A token is the end of the body, or stands in it. -/
theorem eq_end_or_standsIn {source : String} {t : Token} (ht : t ∈ tokenize source) :
    t = endToken source.toList ∨ t.StandsIn source.toList := by
  obtain ⟨front, hfront, htile⟩ := (laid_tokensFrom 0 source.toList).tile [] rfl
  rw [List.nil_append] at hfront htile
  rw [tokenize, hfront, List.mem_append, List.mem_singleton] at ht
  exact ht.symm.imp id fun hmem ↦ (htile.tokens t hmem).2

/-- **A token of a body that is not too long is kept as it is.** -/
theorem narrow?_of_mem {source : String} (hshort : byteLength source.toList < UInt32.size) {t : Token}
    (ht : t ∈ tokenize source) : t.narrow? source.toList = some t := by
  rcases eq_end_or_standsIn ht with rfl | hstands
  · have hend : Span.narrow ⟨byteLength source.toList, byteLength source.toList⟩ =
        ⟨byteLength source.toList, byteLength source.toList⟩ := by
      rw [Span.narrow, Nat.mod_eq_of_lt hshort]
    rw [Token.narrow?, endToken, hend]
    rfl
  · obtain ⟨kind, span⟩ := t
    obtain ⟨-, hfits, hspells⟩ := hstands
    have hkept := hfits.narrow_eq hshort
    have htext := Text.slice?_eq_slice hfits
    suffices h : kind.narrow? source.toList span = some kind by
      rw [Token.narrow?, h, Option.map_some, hkept]
    cases kind with
    | name text =>
      have hword : Keyword.ofSpelling? text = none := ofSpelling?_of_mem ht
      simp only [TokenKind.Spells] at hspells
      simp only [TokenKind.narrow?, narrowWord?, hkept, htext, Option.bind_eq_bind, Option.bind_some,
        hspells, String.ofList_toList, hword, Option.map_some]
    | keyword word =>
      simp only [TokenKind.Spells] at hspells
      simp only [TokenKind.narrow?, narrowWord?, hkept, htext, Option.bind_eq_bind, Option.bind_some,
        hspells, String.ofList_toList, Keyword.ofSpelling?_spelling]
    | int text | float text =>
      simp only [TokenKind.Spells] at hspells
      simp only [TokenKind.narrow?, hkept, htext, hspells, String.ofList_toList, Option.map_some]
    | string text =>
      obtain ⟨inner, hslice, rfl⟩ := hspells
      rw [TokenKind.narrow?, hkept, slice?_inside hfits hslice, Option.map_some]
    | symbol mark | invalid text | done => rfl

/-- **The tokens of a body that is not too long are kept as they are.** -/
theorem narrowTokens?_eq {source : String} (hshort : byteLength source.toList < UInt32.size) :
    narrowTokens? source = some (tokenize source) := by
  have h : ∀ ts : List Token, (∀ t ∈ ts, t.narrow? source.toList = some t) →
      ts.mapM (Token.narrow? source.toList) = some ts := by
    intro ts hts
    induction ts with
    | nil => rfl
    | cons t ts ih =>
      obtain ⟨ht, hrest⟩ := List.forall_mem_cons.1 hts
      rw [List.mapM_cons, ht, ih hrest]
      rfl
  exact h _ fun t ht ↦ narrow?_of_mem hshort ht

end Dossier.Script
