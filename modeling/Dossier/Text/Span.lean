/-!
# Places in a text

A `Span` is a stretch of a text in bytes of its UTF-8 form, so that it means the same whatever the
characters are; a `Position` is what a person counts, lines and characters within the line, both
from one.  `lineCol` turns the first kind of place into the second.

Places are counted here without a bound.  They are kept in 32 bits (`Span.narrow`), and what a kept
place takes off a text is `slice?`; in a text of fewer than `2 ^ 32` bytes both are the same.
-/

set_option autoImplicit false

namespace Dossier.Text

/-! ## Spans -/

/-- The bytes from `start` up to, and not with, `stop`. -/
structure Span where
  /-- The first byte. -/
  start : Nat
  /-- The byte after the last one. -/
  stop : Nat
  deriving DecidableEq, Repr, Inhabited

namespace Span

/-- The number of bytes. -/
def length (s : Span) : Nat := s.stop - s.start

/-- A span that holds no byte. -/
def isEmpty (s : Span) : Bool := s.start == s.stop

/-- The smallest span that covers both. -/
def cover (s t : Span) : Span := ⟨min s.start t.start, max s.stop t.stop⟩

/-- The span as its two ends, with two dots between them. -/
def shown (s : Span) : String := toString s.start ++ ".." ++ toString s.stop

/-- The span as it is kept, in 32 bits for each end. -/
def narrow (s : Span) : Span := ⟨s.start % UInt32.size, s.stop % UInt32.size⟩

end Span

/-! ## Lines and columns -/

/-- A line and a character within it, both counted from one. -/
structure Position where
  /-- The line. -/
  line : Nat
  /-- The character within the line. -/
  column : Nat
  deriving DecidableEq, Repr, Inhabited

namespace Position

/-- Where a text starts. -/
def first : Position := ⟨1, 1⟩

/-- The place just after the character `c` at `p`. -/
def next (p : Position) (c : Char) : Position :=
  if c = '\n' then ⟨p.line + 1, 1⟩ else ⟨p.line, p.column + 1⟩

end Position

/-- The number of bytes of a text. -/
def byteLength : List Char → Nat
  | [] => 0
  | c :: cs => c.utf8Size + byteLength cs

/-- The longest leading part of the text with at most `n` bytes. -/
def takeBytes : Nat → List Char → List Char
  | _, [] => []
  | n, c :: cs => if c.utf8Size ≤ n then c :: takeBytes (n - c.utf8Size) cs else []

/-- The text from the character on that starts at byte `n`. -/
def dropBytes : Nat → List Char → List Char
  | _, [] => []
  | n, c :: cs => if c.utf8Size ≤ n then dropBytes (n - c.utf8Size) cs else c :: cs

theorem takeBytes_append_dropBytes (n : Nat) (cs : List Char) :
    takeBytes n cs ++ dropBytes n cs = cs := by
  induction cs generalizing n with
  | nil => rfl
  | cons c cs ih => rw [takeBytes, dropBytes]; split <;> simp [ih]

/-- The line and column of the character that starts at a byte; past the end, those of the end. -/
def lineCol (text : String) (offset : Nat) : Position :=
  (takeBytes offset text.toList).foldl Position.next Position.first

/-- The characters of a text within a span. -/
def slice (text : List Char) (span : Span) : List Char :=
  takeBytes span.length (dropBytes span.start text)

/-- The characters of a text within a span whose ends are in order and each at the start of a character
or at the end of the text; `none` for any other span. -/
def slice? (text : List Char) (span : Span) : Option (List Char) :=
  if span.start ≤ span.stop ∧ byteLength (takeBytes span.start text) = span.start ∧
      byteLength (takeBytes span.stop text) = span.stop then some (slice text span)
  else none

end Dossier.Text
