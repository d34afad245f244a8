import Dossier.Text.Letter
import Dossier.Script.Token

/-!
# Reading tokens

A body is cut into *pieces*, each a token or something between tokens: spaces, a line feed, a
comment.  `piece` looks at the text that is left, says what stands at its start, and how many
characters beyond the first belong to it; `tokensFrom` cuts the pieces off one after the other and
drops those that are no tokens.

* Every piece holds at least one character, and no piece looks behind itself.
* A comment between slash-stars that is never closed is an invalid token up to the end of the body.
* A string ends at the next quote.  A backslash takes the character after it into the string,
  whatever that is; any other line feed cuts the string off, and what was read is an invalid token.
* A number has a fraction only where a digit follows the point, so that `7.x` is a number, a point
  and a name.
-/

set_option autoImplicit false

namespace Dossier.Script

open Text (Span isPlainDigit isNameStart isNameChar byteLength)

/-! ## What stands at the start of a text -/

/-- A token, or `none` for what stands between tokens, and the number of characters beyond the
first that belong to it. -/
structure Piece where
  /-- The token, if it is one. -/
  kind : Option TokenKind
  /-- How many characters follow the first. -/
  extra : Nat
  deriving Repr

/-- The spaces within a line. -/
def isSpace (c : Char) : Bool := c == ' ' || c == '\t' || c == '\r'

/-- How many characters stand up to and with the next star and slash, if there is one. -/
def commentEnd? : List Char → Option Nat
  | [] => none
  | '*' :: '/' :: _ => some 2
  | _ :: cs => (commentEnd? cs).map (· + 1)

/-- How many characters after an opening quote belong to it, and whether the last of them is the
closing one. -/
def stringExtent : List Char → Bool × Nat
  | [] => (false, 0)
  | '"' :: _ => (true, 1)
  | '\n' :: _ => (false, 0)
  | '\\' :: [] => (false, 1)
  | '\\' :: _ :: cs => let (closed, n) := stringExtent cs; (closed, n + 2)
  | _ :: cs => let (closed, n) := stringExtent cs; (closed, n + 1)

/-- The text that the inside of a string literal stands for: a backslash before `n`, `t`, `r`, `0`,
a backslash or a quote is an escape, before any other character it is a backslash. -/
def unescape : List Char → List Char
  | [] => []
  | '\\' :: 'n' :: cs => '\n' :: unescape cs
  | '\\' :: 't' :: cs => '\t' :: unescape cs
  | '\\' :: 'r' :: cs => '\r' :: unescape cs
  | '\\' :: '0' :: cs => '\x00' :: unescape cs
  | '\\' :: '\\' :: cs => '\\' :: unescape cs
  | '\\' :: '"' :: cs => '"' :: unescape cs
  | '\\' :: c :: cs => '\\' :: c :: unescape cs
  | c :: cs => c :: unescape cs

/-- A name or a keyword: a character that starts names, and all that can follow it. -/
def namePiece (c : Char) (cs : List Char) : Piece :=
  let more := cs.takeWhile isNameChar
  let text := String.ofList (c :: more)
  let kind := match Keyword.ofSpelling? text with
    | some word => .keyword word
    | none => .name text
  ⟨some kind, more.length⟩

/-- A number: digits, and if a point and a digit follow, these and all digits after them. -/
def numberPiece (c : Char) (cs : List Char) : Piece :=
  let whole := c :: cs.takeWhile isPlainDigit
  match cs.dropWhile isPlainDigit with
  | '.' :: d :: rest =>
    if isPlainDigit d then
      let fraction := d :: rest.takeWhile isPlainDigit
      ⟨some (.float (String.ofList (whole ++ '.' :: fraction))), whole.length + fraction.length⟩
    else ⟨some (.int (String.ofList whole)), whole.length - 1⟩
  | _ => ⟨some (.int (String.ofList whole)), whole.length - 1⟩

/-- A string literal, or the start of one that is not closed on its line. -/
def stringPiece (cs : List Char) : Piece :=
  let (closed, n) := stringExtent cs
  if closed then ⟨some (.string (String.ofList (unescape (cs.take (n - 1))))), n⟩
  else ⟨some (.invalid (String.ofList ('"' :: cs.take n))), n⟩

/-- A comment that ends with a star and a slash; `cs` starts at the star that opens it. -/
def commentPiece (cs : List Char) : Piece :=
  match commentEnd? (cs.drop 1) with
  | some n => ⟨none, n + 1⟩
  | none => ⟨some (.invalid (String.ofList ('/' :: cs))), cs.length⟩

/-- A symbol that is written with one character. -/
def single? : Char → Option Symbol
  | '+' => some .plus
  | '-' => some .minus
  | '*' => some .star
  | '/' => some .slash
  | '%' => some .percent
  | '!' => some .bang
  | '=' => some .assign
  | '<' => some .less
  | '>' => some .greater
  | '.' => some .dot
  | ',' => some .comma
  | ';' => some .semicolon
  | '(' => some .openParen
  | ')' => some .closeParen
  | '{' => some .openBrace
  | '}' => some .closeBrace
  | _ => none

/-- A symbol that is written with two characters. -/
def double? : Char → Char → Option Symbol
  | '+', '=' => some .plusAssign
  | '-', '=' => some .minusAssign
  | '*', '=' => some .starAssign
  | '/', '=' => some .slashAssign
  | '&', '&' => some .both
  | '|', '|' => some .either
  | '!', '=' => some .notEqual
  | '=', '=' => some .equal
  | '<', '=' => some .lessEqual
  | '>', '=' => some .greaterEqual
  | _, _ => none

/-- A symbol, the longer one where two fit, or a character that starts no token. -/
def symbolPiece (c : Char) (cs : List Char) : Piece :=
  match cs.head?.bind (double? c) with
  | some mark => ⟨some (.symbol mark), 1⟩
  | none => match single? c with
    | some mark => ⟨some (.symbol mark), 0⟩
    | none => ⟨some (.invalid (String.singleton c)), 0⟩

/-- What stands at the start of the text `c :: cs`. -/
def piece (c : Char) (cs : List Char) : Piece :=
  if isSpace c then ⟨none, (cs.takeWhile isSpace).length⟩
  else if c = '\n' then ⟨none, 0⟩
  else if c = '/' ∧ cs.head? = some '/' then ⟨none, (cs.takeWhile (· != '\n')).length⟩
  else if c = '/' ∧ cs.head? = some '*' then commentPiece cs
  else if c = '"' then stringPiece cs
  else if isPlainDigit c then numberPiece c cs
  else if isNameStart c then namePiece c cs
  else symbolPiece c cs

/-! ## The tokens of a body -/

/-- The tokens of a text whose first `skip` characters belong to a piece that was read before;
`offset` is the byte at which the text starts. -/
def tokensFrom : Nat → Nat → List Char → List Token
  | _, offset, [] => [⟨.done, ⟨offset, offset⟩⟩]
  | skip + 1, offset, c :: cs => tokensFrom skip (offset + c.utf8Size) cs
  | 0, offset, c :: cs =>
    let p := piece c cs
    let rest := tokensFrom p.extra (offset + c.utf8Size) cs
    match p.kind with
    | none => rest
    | some kind =>
      ⟨kind, ⟨offset, offset + byteLength (c :: cs.take p.extra)⟩⟩ :: rest

/-- The tokens of a body; the last one is `TokenKind.done`. -/
def tokenize (source : String) : List Token := tokensFrom 0 0 source.toList

/-- Skipping characters is leaving them out, and counting their bytes. -/
theorem tokensFrom_skip (skip offset : Nat) (cs : List Char) :
    tokensFrom skip offset cs =
      tokensFrom 0 (offset + byteLength (cs.take skip)) (cs.drop skip) := by
  induction cs generalizing skip offset with
  | nil => cases skip <;> simp [tokensFrom, byteLength]
  | cons c cs ih =>
    cases skip with
    | zero => simp [byteLength]
    | succ skip =>
      rw [tokensFrom, ih]
      simp [byteLength, Nat.add_assoc]

end Dossier.Script
