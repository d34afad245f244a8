import Dossier.Proofs.Text.Lines

/-!
# Positions tell places apart

The line and the column of a place in a text are as good as its byte offset.

* Positions are in order by their line first and then by their column.  Each character leads to a
  greater one (`Position.lt_next`), so that further places have greater positions (`lineCol_lt`).
* `offsetAt?` goes the other way, from a position to an offset, and counts nothing but line feeds and
  characters on one line.  It leads back to the place that the position is of (`offsetAt?_lineCol`).
-/

set_option autoImplicit false

namespace Dossier.Text

/-! ## The order of positions -/

/-- A position is less than another one if it is on a line before, or on the same line further to the
left. -/
instance : LT Position := ⟨fun p q ↦ p.line < q.line ∨ p.line = q.line ∧ p.column < q.column⟩

namespace Position

theorem lt_iff {p q : Position} :
    p < q ↔ p.line < q.line ∨ p.line = q.line ∧ p.column < q.column := Iff.rfl

protected theorem lt_trans {p q r : Position} (hpq : p < q) (hqr : q < r) : p < r := by
  rw [lt_iff] at hpq hqr ⊢
  omega

/-- A character leads on, whether or not it ends the line. -/
theorem lt_next (p : Position) (c : Char) : p < p.next c := by
  by_cases hc : c = '\n'
  · rw [next, if_pos hc]
    exact .inl (Nat.lt_succ_self p.line)
  · rw [next, if_neg hc]
    exact .inr ⟨rfl, Nat.lt_succ_self p.column⟩

/-- So do some characters. -/
theorem lt_foldl_next (p : Position) {cs : List Char} (h : cs ≠ []) : p < cs.foldl next p := by
  induction cs generalizing p with
  | nil => exact absurd rfl h
  | cons c cs ih =>
    rw [List.foldl_cons]
    by_cases hcs : cs = []
    · rw [hcs]
      exact p.lt_next c
    · exact Position.lt_trans (p.lt_next c) (ih (p.next c) hcs)

end Position

/-- Of two places, the one further on is the other with some text behind it. -/
theorem IsBoundary.exists_stretch {text : List Char} {m n : Nat} (hm : IsBoundary text m)
    (hn : IsBoundary text n) (h : m < n) : ∃ before stretch behind,
      text = before ++ (stretch ++ behind) ∧ stretch ≠ [] ∧ byteLength before = m ∧
        byteLength (before ++ stretch) = n := by
  have hfits : Span.Fits text ⟨m, n⟩ := ⟨Nat.le_of_lt h, hm, hn⟩
  obtain ⟨before, stretch, behind, htext, hstart, hstop⟩ := hfits.exists_parts
  refine ⟨before, stretch, behind, htext, ?_, hstart, (byteLength_append _ _).trans hstop⟩
  rintro rfl
  exact Nat.ne_of_lt h (hstart.symm.trans hstop)

/-- **Places further on have greater positions.** -/
theorem lineCol_lt {text : String} {m n : Nat} (hm : IsBoundary text.toList m)
    (hn : IsBoundary text.toList n) (h : m < n) : lineCol text m < lineCol text n := by
  obtain ⟨before, stretch, behind, htext, hstretch, rfl, rfl⟩ := hm.exists_stretch hn h
  have hfar : lineCol text (byteLength (before ++ stretch)) =
      stretch.foldl Position.next (lineCol text (byteLength before)) := by
    rw [lineCol, lineCol, htext, takeBytes_append, ← List.append_assoc, takeBytes_append,
      List.foldl_append]
  rw [hfar]
  exact Position.lt_foldl_next _ hstretch

/-! ## From positions to places -/

/-- The text up to its first `n` line feeds, the last of them included, if it has as many. -/
def throughFeeds? : (n : Nat) → List Char → Option (List Char)
  | 0, _ => some []
  | _ + 1, [] => none
  | n + 1, c :: cs => (throughFeeds? (if c = '\n' then n else n + 1) cs).map (c :: ·)

/-- The byte offset that a position leads to from the start of the text: just past as many line feeds
as there are lines before its own, and then over the characters before its column.  There is none if
the text has too few line feeds, or that line too few characters. -/
def offsetAt? (text : List Char) (p : Position) : Option Nat :=
  (throughFeeds? (p.line - 1) text).bind fun lines ↦
    let within := (text.drop lines.length).take (p.column - 1)
    if within.length = p.column - 1 ∧ '\n' ∉ within then
      some (byteLength lines + byteLength within)
    else none

@[simp] theorem throughFeeds?_zero (cs : List Char) : throughFeeds? 0 cs = some [] := by
  rw [throughFeeds?]

/-- The line feeds of a part are as many as have to be passed in front of the next one. -/
theorem throughFeeds?_feed (before behind : List Char) :
    throughFeeds? (before.count '\n' + 1) (before ++ '\n' :: behind) = some (before ++ ['\n']) := by
  induction before with
  | nil => simp [throughFeeds?]
  | cons c cs ih =>
    rw [List.cons_append, throughFeeds?]
    by_cases hc : c = '\n'
    · rw [if_pos hc, hc, List.count_cons_self, ih]
      rfl
    · rw [if_neg hc, List.count_cons_of_ne hc, ih]
      rfl

/-- As many line feeds as there are in front of a place end where its line starts. -/
theorem throughFeeds?_count (before behind : List Char) :
    throughFeeds? (before.count '\n') (before ++ behind) =
      some (before.rdropWhile (· != '\n')) := by
  induction before using List.reverseRecOn generalizing behind with
  | nil => simp
  | append_singleton before c ih =>
    rw [List.count_append, List.append_assoc, List.singleton_append]
    by_cases hc : c = '\n'
    · rw [hc, List.count_singleton_self, throughFeeds?_feed,
        List.rdropWhile_concat_neg _ _ _ (by simp)]
    · rw [List.count_singleton, if_neg (by simpa using hc), Nat.add_zero, ih,
        List.rdropWhile_concat_pos _ _ _ (by simpa using hc)]

/-- **The position of a place leads back to it.** -/
theorem offsetAt?_lineCol {text : String} {n : Nat} (h : IsBoundary text.toList n) :
    offsetAt? text.toList (lineCol text n) = some n := by
  obtain ⟨before, behind, htext, rfl⟩ := h
  -- the place is behind the lines before its own, and behind the part of its line in front of it
  have hparts : before.rdropWhile (· != '\n') ++ before.rtakeWhile (· != '\n') = before :=
    List.rdropWhile_append_rtakeWhile
  have hplain : '\n' ∉ before.rtakeWhile (· != '\n') := fun hmem ↦ by
    simpa using List.mem_rtakeWhile_imp hmem
  have hfeeds := throughFeeds?_count before behind
  rw [lineCol_append htext, offsetAt?, htext]
  generalize before.rdropWhile (· != '\n') = lines at hparts hfeeds
  generalize before.rtakeWhile (· != '\n') = line at hparts hplain
  have hwithin : ((before ++ behind).drop lines.length).take line.length = line := by
    rw [← hparts, List.append_assoc, List.drop_left, List.take_left]
  simp only [Nat.add_sub_cancel, hfeeds, Option.bind_some, hwithin]
  rw [if_pos ⟨trivial, hplain⟩, ← byteLength_append, hparts]

/-- **Positions tell places apart.**  Of two places in a text, the one further on has the greater
position.  And from the start of the text, just past as many line feeds as the line counts less one, and
then over as many characters as the column counts less one, none of which is a line feed, each position
leads to the place that it is of. -/
theorem lineCol_identifies (text : String) :
    (∀ m n, IsBoundary text.toList m → IsBoundary text.toList n → m < n →
      lineCol text m < lineCol text n) ∧
    ∀ n, IsBoundary text.toList n → offsetAt? text.toList (lineCol text n) = some n :=
  ⟨fun _ _ ↦ lineCol_lt, fun _ ↦ offsetAt?_lineCol⟩

/-- Characters of one, two and three bytes, on two lines. -/
def unevenText : String := "aé\n€b;"

/-- The line feed starts at byte 3 and the last letter at byte 7. -/
theorem unevenText_positions :
    IsBoundary unevenText.toList 3 ∧ IsBoundary unevenText.toList 7 ∧
      lineCol unevenText 3 = ⟨1, 3⟩ ∧ lineCol unevenText 7 = ⟨2, 2⟩ ∧
      lineCol unevenText 3 < lineCol unevenText 7 ∧
      offsetAt? unevenText.toList (lineCol unevenText 7) = some 7 := by
  have hfeed : IsBoundary unevenText.toList 3 :=
    ⟨['a', 'é'], ['\n', '€', 'b', ';'], by decide +kernel, rfl⟩
  have hletter : IsBoundary unevenText.toList 7 :=
    ⟨['a', 'é', '\n', '€'], ['b', ';'], by decide +kernel, rfl⟩
  obtain ⟨hless, hback⟩ := lineCol_identifies unevenText
  exact ⟨hfeed, hletter, by decide +kernel, by decide +kernel,
    hless 3 7 hfeed hletter (by decide), hback 7 hletter⟩

end Dossier.Text
