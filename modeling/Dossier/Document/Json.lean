import Dossier.Document
import Dossier.Number.Shortest

/-!
# Reading JSON

`Document.ofJson` reads the document that a text starts with, and says whether nothing but blanks
follows it.

* A number is whole if it has no fraction, no power of ten and fits into 64 bits, with a sign or
  without one; minus zero does not.  Any other number is a double: the digits that fit into 64 bits,
  scaled by a power of ten.  One that is too large is unreadable.
* An escape for half of a surrogate pair without the other half makes a string unreadable.
* Control characters in strings, zeros in front of a number, commas at the end of a list or table,
  and whatever else the grammar does not have, are where the text breaks.

The readers go as deep as the text nests, with fuel that is the number of its characters.

This is one reader of the format among others.  What is proved of records relies on no more than what
`Dossier.Proofs.Record.Libraries` asks of any, and shows of this one.
-/

set_option autoImplicit false

namespace Dossier

namespace Json

open Text (isPlainDigit)

/-! ## Blanks -/

/-- The blanks of the format. -/
def isBlank (c : Char) : Bool := c == ' ' || c == '\n' || c == '\t' || c == '\r'

/-- The text without the blanks it starts with. -/
def dropBlanks (cs : List Char) : List Char := cs.dropWhile isBlank

/-! ## Strings -/

/-- The value of a digit to base sixteen. -/
def hexValue? (c : Char) : Option Nat :=
  let n := c.toNat
  if isPlainDigit c then some (n - 48)
  else if 'a' ≤ c ∧ c ≤ 'f' then some (n - 87)
  else if 'A' ≤ c ∧ c ≤ 'F' then some (n - 55)
  else none

/-- The value of a row of digits to base sixteen. -/
def hexNat? (cs : List Char) : Option Nat :=
  cs.foldl (fun acc c ↦ do some (16 * (← acc) + (← hexValue? c))) (some 0)

/-- A part of a string: a character, or a unit of sixteen bits that an escape stands for. -/
inductive StringPart where
  | char (c : Char)
  | unit (n : Nat)
  deriving DecidableEq, Repr

/-- The character that an escape with one letter stands for. -/
def escaped? : Char → Option Char
  | '"' => some '"'
  | '\\' => some '\\'
  | '/' => some '/'
  | 'b' => some '\x08'
  | 'f' => some '\x0c'
  | 'n' => some '\n'
  | 'r' => some '\r'
  | 't' => some '\t'
  | _ => none

/-- The parts of a string up to its closing quote, and what follows it. -/
def stringParts : List Char → Option (List StringPart × List Char)
  | [] => none
  | '"' :: rest => some ([], rest)
  | '\\' :: 'u' :: a :: b :: c :: d :: rest => do
    let n ← hexNat? [a, b, c, d]
    let (parts, rest) ← stringParts rest
    some (.unit n :: parts, rest)
  | '\\' :: e :: rest => do
    let c ← escaped? e
    let (parts, rest) ← stringParts rest
    some (.char c :: parts, rest)
  | c :: rest =>
    if c.toNat < 0x20 ∨ c = '\\' then none
    else do
      let (parts, rest) ← stringParts rest
      some (.char c :: parts, rest)

/-- Is this the first unit of a pair? -/
def isLeading (n : Nat) : Bool := decide (0xD800 ≤ n) && decide (n < 0xDC00)

/-- Is this the second unit of a pair? -/
def isTrailing (n : Nat) : Bool := decide (0xDC00 ≤ n) && decide (n < 0xE000)

/-- The text of parts; units that are half of a pair must stand next to the other half. -/
def textOfParts? : List StringPart → Option (List Char)
  | [] => some []
  | .char c :: parts => (textOfParts? parts).map (c :: ·)
  | .unit n :: .unit m :: parts =>
    if isLeading n then
      if isTrailing m then
        (textOfParts? parts).map
          (Char.ofNat (0x10000 + (n - 0xD800) * 0x400 + (m - 0xDC00)) :: ·)
      else none
    else if isTrailing n then none
    else (textOfParts? (.unit m :: parts)).map (Char.ofNat n :: ·)
  | .unit n :: parts =>
    if isLeading n || isTrailing n then none else (textOfParts? parts).map (Char.ofNat n :: ·)

/-! ## Numbers -/

/-- The digits of a number: before the point, after it, and the power of ten. -/
structure Numeral where
  /-- Is there a minus sign? -/
  negative : Bool
  /-- The digits before the point. -/
  whole : List Char
  /-- The digits after the point, if there is one. -/
  fraction : Option (List Char)
  /-- The power of ten, if there is one. -/
  exponent : Option Int
  deriving Repr

/-- A point with at least one digit after it, or none; nothing if no digit follows the point. -/
def fraction? : List Char → Option (Option (List Char) × List Char)
  | '.' :: rest =>
    let digits := rest.takeWhile isPlainDigit
    if digits.isEmpty then none else some (some digits, rest.drop digits.length)
  | cs => some (none, cs)

/-- The power of ten after the letter `e`, or none; nothing if no digit follows the letter. -/
def exponent? : List Char → Option (Option Int × List Char)
  | e :: rest =>
    if e = 'e' ∨ e = 'E' then
      let (sign, rest) : Int × List Char := match rest with
        | '-' :: rest => (-1, rest)
        | '+' :: rest => (1, rest)
        | _ => (1, rest)
      let digits := rest.takeWhile isPlainDigit
      if digits.isEmpty then none
      else some (some (sign * Number.natOfDigits digits), rest.drop digits.length)
    else some (none, e :: rest)
  | [] => some (none, [])

/-- A number, and what follows it. -/
def numeral? (cs : List Char) : Option (Numeral × List Char) := do
  let (negative, cs) := match cs with
    | '-' :: rest => (true, rest)
    | _ => (false, cs)
  let whole := cs.takeWhile isPlainDigit
  guard (!whole.isEmpty && (whole.length == 1 || whole.head? != some '0'))
  let (fraction, cs) ← fraction? (cs.drop whole.length)
  let (exponent, cs) ← exponent? cs
  some (⟨negative, whole, fraction, exponent⟩, cs)

/-- Takes digits into a number as long as it stays below `2 ^ 64`; also gives what is left of them. -/
def takeDigits : Nat → List Char → Nat × List Char
  | n, [] => (n, [])
  | n, c :: cs =>
    let next := 10 * n + Number.digitValue c
    if next < Number.twoTo 64 then takeDigits next cs else (n, c :: cs)

/-- A double times ten to a power; nothing where that is beyond all doubles.  Below the powers that
doubles have, the division is done in two steps. -/
def scaled? (x : Float) (e : Int) : Option Float :=
  if e < -616 then some 0.0
  else if e < -308 then some (x / 1e308 / Float.ofScientific 1 false (-e - 308).toNat)
  else if e < 0 then some (x / Float.ofScientific 1 false (-e).toNat)
  else if x == 0.0 then some x
  else if 308 < e then none
  else
    let y := x * Float.ofScientific 1 false e.toNat
    if y.isInf then none else some y

/-- The double that a number stands for.  The digits before the point and those after it are taken in
one after the other, in both cases up to the first that does not fit: a digit before the point that is
left counts as a power of ten, one after it not at all. -/
def Numeral.float? (n : Numeral) : Option Float := do
  let fraction := n.fraction.getD []
  let (m, left) := takeDigits 0 n.whole
  let (m, leftFraction) := takeDigits m fraction
  let places : Int := fraction.length - leftFraction.length
  let x ← scaled? (UInt64.toFloat (UInt64.ofNat m)) (left.length - places + n.exponent.getD 0)
  some (if n.negative then -x else x)

/-- What a number stands for. -/
def Numeral.document (n : Numeral) : Document :=
  let size := Number.natOfDigits n.whole
  let isInt := n.fraction.isNone && n.exponent.isNone &&
    if n.negative then decide (0 < size) && decide (size ≤ Number.twoTo 63) else decide (size < Number.twoTo 64)
  if isInt then .int (if n.negative then -(size : Int) else size)
  else
    match n.float? with
    | some x => .float (Number.floatTextCompact x)
    | none => .unreadable

/-! ## Documents -/

/-- The rest of the text after a word, if it starts with it. -/
def after? (word : List Char) (cs : List Char) : Option (List Char) :=
  if word.isPrefixOf cs then some (cs.drop word.length) else none

/-- A document that one of the three words stands for. -/
def wordDocument (word : List Char) (d : Document) (cs : List Char) : Document × List Char :=
  match after? word cs with
  | some rest => (d, rest)
  | none => (.broken, [])

mutual

/-- The document at the front of a text, and what follows it. -/
def read : (fuel : Nat) → List Char → Document × List Char
  | 0, _ => (.broken, [])
  | fuel + 1, cs =>
    match dropBlanks cs with
    | [] => (.broken, [])
    | '"' :: rest =>
      match stringParts rest with
      | none => (.broken, [])
      | some (parts, rest) =>
        match textOfParts? parts with
        | some text => (.string (String.ofList text), rest)
        | none => (.unreadable, rest)
    | '[' :: rest =>
      match dropBlanks rest with
      | ']' :: rest => (.list [] true, rest)
      | rest =>
        let (items, complete, rest) := readItems fuel rest
        (.list items complete, rest)
    | '{' :: rest =>
      match dropBlanks rest with
      | '}' :: rest => (.table [] true, rest)
      | rest =>
        let (members, complete, rest) := readMembers fuel rest
        (.table members complete, rest)
    | 'n' :: rest => wordDocument "null".toList .null ('n' :: rest)
    | 't' :: rest => wordDocument "true".toList (.bool true) ('t' :: rest)
    | 'f' :: rest => wordDocument "false".toList (.bool false) ('f' :: rest)
    | c :: rest =>
      match numeral? (c :: rest) with
      | some (n, rest) => (n.document, rest)
      | none => (.broken, [])

/-- The items of a list up to its end, whether they are all well-formed, and what follows. -/
def readItems : (fuel : Nat) → List Char → List Document × Bool × List Char
  | 0, _ => ([], false, [])
  | fuel + 1, cs =>
    let (item, rest) := read fuel cs
    if item.isSound then
      match dropBlanks rest with
      | ']' :: rest => ([item], true, rest)
      | ',' :: rest =>
        match dropBlanks rest with
        | ']' :: _ => ([item], false, [])
        | [] => ([item], false, [])
        | rest =>
          let (items, complete, rest) := readItems fuel rest
          (item :: items, complete, rest)
      | _ => ([item], false, [])
    else ([item], false, [])

/-- The members of a table up to its end, whether they are all well-formed, and what follows. -/
def readMembers : (fuel : Nat) → List Char → List (Option String × Document) × Bool × List Char
  | 0, _ => ([], false, [])
  | fuel + 1, cs =>
    match dropBlanks cs with
    | '"' :: rest =>
      match stringParts rest with
      | none => ([], false, [])
      | some (parts, rest) =>
        let name := (textOfParts? parts).map String.ofList
        match dropBlanks rest with
        | ':' :: rest =>
          let (value, rest) := read fuel rest
          if value.isSound then
            match dropBlanks rest with
            | '}' :: rest => ([(name, value)], true, rest)
            | ',' :: rest =>
              let (members, complete, rest) := readMembers fuel rest
              ((name, value) :: members, complete, rest)
            | _ => ([(name, value)], false, [])
          else ([(name, value)], false, [])
        | _ => ([(name, .broken)], false, [])
    | _ => ([], false, [])

end

end Json

/-- The document of a text, and whether the text is over after it. -/
def Document.ofJson (text : String) : Document × Bool :=
  let cs := text.toList
  let (d, rest) := Json.read (2 * cs.length + 2) cs
  (d, (Json.dropBlanks rest).isEmpty)

end Dossier
