import Dossier.Text.Span

/-!
# Places between characters

A byte offset is a place in a text only where a character starts or the text ends.

* `IsBoundary text n` says so of an offset, and `Span.Fits text s` of both ends of a span, which are
  also in order.  Spans that fit can be covered by one that fits.
* Bytes are taken off at such a place as characters are (`takeBytes_append`, `dropBytes_append`), so
  that the text of a span that fits is what stands between its ends (`slice_append`).
-/

set_option autoImplicit false

namespace Dossier.Text

theorem byteLength_append (before behind : List Char) :
    byteLength (before ++ behind) = byteLength before + byteLength behind := by
  induction before with
  | nil => simp [byteLength]
  | cons c cs ih => simp [byteLength, ih, Nat.add_assoc]

theorem byteLength_pos {cs : List Char} (h : cs ≠ []) : 0 < byteLength cs := by
  cases cs with
  | nil => exact absurd rfl h
  | cons c cs => exact Nat.lt_of_lt_of_le c.utf8Size_pos (Nat.le_add_right _ _)

theorem eq_nil_of_byteLength {cs : List Char} (h : byteLength cs = 0) : cs = [] := by
  cases cs with
  | nil => rfl
  | cons c cs => exact absurd h (Nat.ne_of_gt (byteLength_pos (List.cons_ne_nil c cs)))

theorem takeBytes_append (before behind : List Char) :
    takeBytes (byteLength before) (before ++ behind) = before := by
  induction before with
  | nil =>
    cases behind with
    | nil => rfl
    | cons c cs => rw [byteLength, List.nil_append, takeBytes, if_neg (Nat.not_le.2 c.utf8Size_pos)]
  | cons c cs ih =>
    rw [byteLength, List.cons_append, takeBytes, if_pos (Nat.le_add_right _ _),
      Nat.add_sub_cancel_left, ih]

theorem dropBytes_append (before behind : List Char) :
    dropBytes (byteLength before) (before ++ behind) = behind := by
  have h := takeBytes_append_dropBytes (byteLength before) (before ++ behind)
  rwa [takeBytes_append, List.append_cancel_left_eq] at h

/-- The text of the span between two parts. -/
theorem slice_append (before middle behind : List Char) :
    slice (before ++ (middle ++ behind)) ⟨byteLength before, byteLength before + byteLength middle⟩ =
      middle := by
  rw [slice, Span.length, Nat.add_sub_cancel_left, dropBytes_append, takeBytes_append]

/-! ## Boundaries -/

/-- The offset is at the start of a character, or at the end of the text. -/
def IsBoundary (text : List Char) (n : Nat) : Prop :=
  ∃ before behind, text = before ++ behind ∧ byteLength before = n

namespace IsBoundary

variable {text : List Char} {n m : Nat}

theorem zero (text : List Char) : IsBoundary text 0 := ⟨[], text, rfl, rfl⟩

theorem of_append (before behind : List Char) :
    IsBoundary (before ++ behind) (byteLength before) := ⟨before, behind, rfl, rfl⟩

theorem le (h : IsBoundary text n) : n ≤ byteLength text := by
  obtain ⟨before, behind, rfl, rfl⟩ := h
  rw [byteLength_append]
  exact Nat.le_add_right _ _

theorem min (hn : IsBoundary text n) (hm : IsBoundary text m) : IsBoundary text (min n m) := by
  rcases Nat.le_total n m with h | h
  · rwa [Nat.min_eq_left h]
  · rwa [Nat.min_eq_right h]

theorem max (hn : IsBoundary text n) (hm : IsBoundary text m) : IsBoundary text (max n m) := by
  rcases Nat.le_total n m with h | h
  · rwa [Nat.max_eq_right h]
  · rwa [Nat.max_eq_left h]

end IsBoundary

/-- The ends of the span are boundaries of the text, and in order. -/
structure Span.Fits (text : List Char) (s : Span) : Prop where
  ordered : s.start ≤ s.stop
  start : IsBoundary text s.start
  stop : IsBoundary text s.stop

namespace Span.Fits

variable {text : List Char} {s t : Span}

/-- The empty span at the start. -/
theorem zero (text : List Char) : Span.Fits text ⟨0, 0⟩ :=
  ⟨Nat.le_refl 0, .zero text, .zero text⟩

theorem cover (hs : s.Fits text) (ht : t.Fits text) : (s.cover t).Fits text where
  ordered := Nat.le_trans (Nat.min_le_left _ _) (Nat.le_trans hs.ordered (Nat.le_max_left _ _))
  start := hs.start.min ht.start
  stop := hs.stop.max ht.stop

theorem start_add_length (hs : s.Fits text) : s.start + s.length = s.stop :=
  Nat.add_sub_cancel' hs.ordered

/-- The text falls into what is in front of the span, in it, and behind it. -/
theorem exists_parts (hs : s.Fits text) : ∃ before stretch behind,
    text = before ++ (stretch ++ behind) ∧ byteLength before = s.start ∧
      byteLength before + byteLength stretch = s.stop := by
  obtain ⟨before, rest, htext, hstart⟩ := hs.start
  obtain ⟨before', behind, htext', hstop⟩ := hs.stop
  rcases List.append_eq_append_iff.1 (htext.symm.trans htext') with
    ⟨stretch, rfl, hrest⟩ | ⟨stretch, rfl, hbehind⟩
  · rw [byteLength_append] at hstop
    exact ⟨before, stretch, behind, hrest ▸ htext, hstart, hstop⟩
  · -- the span ends where it starts
    have hle := hs.ordered
    rw [byteLength_append] at hstart
    cases stretch with
    | nil => exact ⟨before', [], rest, by simpa using htext, hstart, hstop⟩
    | cons c cs =>
      have := byteLength_pos (List.cons_ne_nil c cs)
      omega

end Span.Fits

end Dossier.Text
