import Dossier.Document.Json

/-!
# Reading TOML

`Document.ofToml?` reads a text of lines with a key and a value each, and of sections, which are
tables under a name in brackets.  Keys are bare words or strings on one line; values are strings,
whole numbers, doubles, truth values, arrays, and tables in braces.  A key may be given once in a
table, and a section once in a text.  Arrays and tables in braces stand within each other up to
`maxNesting` deep.

A text that breaks the rules anywhere is none.
-/

set_option autoImplicit false

namespace Dossier

namespace Toml

open Text (isPlainDigit isPlainLetter)

/-! ## Characters -/

/-- The blanks within a line. -/
def isSpace (c : Char) : Bool := c == ' ' || c == '\t'

/-- The text without the blanks of the line it starts with. -/
def dropSpaces (cs : List Char) : List Char := cs.dropWhile isSpace

/-- The characters that may stand in strings and comments: no controls, except for the tabulator. -/
def isPlain (c : Char) : Bool := c == '\t' || (decide (0x20 ≤ c.toNat) && c.toNat != 0x7F)

/-- The rest of a text after a line break, if it starts with one. -/
def afterBreak? : List Char → Option (List Char)
  | '\n' :: rest => some rest
  | '\r' :: '\n' :: rest => some rest
  | _ => none

/-- The text after a comment, if there is one; it ends before the line break. -/
def dropComment? (cs : List Char) : Option (List Char) :=
  match cs with
  | '#' :: rest =>
    let rest := rest.dropWhile isPlain
    if rest.isEmpty || (afterBreak? rest).isSome then some rest else none
  | _ => some cs

/-- The text after what may stand at the end of a line, and the line break. -/
def dropLineEnd? (cs : List Char) : Option (List Char) := do
  let rest ← dropComment? (dropSpaces cs)
  if rest.isEmpty then some [] else afterBreak? rest

/-- The text after blanks, comments and line breaks; `fuel` bounds their lines. -/
def dropFiller? : (fuel : Nat) → List Char → Option (List Char)
  | 0, _ => none
  | fuel + 1, cs => do
    let rest ← dropComment? (dropSpaces cs)
    match afterBreak? rest with
    | some rest => dropFiller? fuel rest
    | none => some rest

/-! ## Strings -/

/-- The character that an escape with one letter stands for. -/
def escaped? : Char → Option Char
  | 'b' => some '\x08'
  | 't' => some '\t'
  | 'n' => some '\n'
  | 'f' => some '\x0c'
  | 'r' => some '\r'
  | '"' => some '"'
  | '\\' => some '\\'
  | _ => none

/-- The character with a code point, if there is one. -/
def char? (n : Nat) : Option Char := if n.isValidChar then some (Char.ofNat n) else none

/-- The character of an escape, after its backslash, and what follows it. -/
def escape? : List Char → Option (Char × List Char)
  | 'u' :: a :: b :: c :: d :: rest => do
    let n ← Json.hexNat? [a, b, c, d]
    some (← char? n, rest)
  | 'U' :: a :: b :: c :: d :: e :: f :: g :: h :: rest => do
    let n ← Json.hexNat? [a, b, c, d, e, f, g, h]
    some (← char? n, rest)
  | e :: rest => do some (← escaped? e, rest)
  | [] => none

/-- A string with escapes on one line, after its opening quote. -/
def basicString? : (fuel : Nat) → List Char → Option (List Char × List Char)
  | 0, _ => none
  | _ + 1, '"' :: rest => some ([], rest)
  | fuel + 1, '\\' :: rest => do
    let (c, rest) ← escape? rest
    let (text, rest) ← basicString? fuel rest
    some (c :: text, rest)
  | fuel + 1, c :: rest =>
    if isPlain c then do
      let (text, rest) ← basicString? fuel rest
      some (c :: text, rest)
    else none
  | _ + 1, [] => none

/-- A string without escapes on one line, after its opening quote. -/
def literalString? : List Char → Option (List Char × List Char)
  | [] => none
  | '\x27' :: rest => some ([], rest)
  | c :: rest =>
    if isPlain c then do
      let (text, rest) ← literalString? rest
      some (c :: text, rest)
    else none

/-- The quotes before the end of a string of several lines that belong to it, and what follows the
end: up to two quotes may stand before the three closing ones. -/
def closing? (q : Char) (cs : List Char) : Option (List Char × List Char) :=
  let count := min 5 (cs.takeWhile (· == q)).length
  if 3 ≤ count then some (List.replicate (count - 3) q, cs.drop count) else none

/-- The text without the blanks and line breaks it starts with. -/
def dropBlankLines : List Char → List Char
  | ' ' :: rest => dropBlankLines rest
  | '\t' :: rest => dropBlankLines rest
  | '\n' :: rest => dropBlankLines rest
  | '\r' :: '\n' :: rest => dropBlankLines rest
  | cs => cs

/-- The text after a backslash that ends its line: blanks, a line break, and all blanks and breaks
after it. -/
def afterFold? (cs : List Char) : Option (List Char) :=
  (afterBreak? (dropSpaces cs)).map dropBlankLines

/-- A string of several lines, after its opening quotes `q` and the line break that may follow them.
With double quotes it has escapes. -/
def longString? (q : Char) : (fuel : Nat) → List Char → Option (List Char × List Char)
  | 0, _ => none
  | _ + 1, [] => none
  | fuel + 1, c :: rest =>
    match closing? q (c :: rest) with
    | some r => some r
    | none =>
      let go (front : List Char) (rest : List Char) : Option (List Char × List Char) := do
        let (text, rest) ← longString? q fuel rest
        some (front ++ text, rest)
      if c = '\\' ∧ q = '"' then
        match afterFold? rest with
        | some rest => go [] rest
        | none =>
          match escape? rest with
          | some (c, rest) => go [c] rest
          | none => none
      else
        match afterBreak? (c :: rest) with
        | some rest => go ['\n'] rest
        | none => if isPlain c then go [c] rest else none

/-- The text without the line break it starts with. -/
def dropBreak (cs : List Char) : List Char := (afterBreak? cs).getD cs

/-- A string of any kind, and what follows it. -/
def string? (cs : List Char) : Option (List Char × List Char) :=
  match cs with
  | '"' :: '"' :: '"' :: rest => longString? '"' (rest.length + 1) (dropBreak rest)
  | '\x27' :: '\x27' :: '\x27' :: rest => longString? '\x27' (rest.length + 1) (dropBreak rest)
  | '"' :: rest => basicString? (rest.length + 1) rest
  | '\x27' :: rest => literalString? rest
  | _ => none

/-! ## Numbers -/

/-- The digits of a row in which a low line may stand between two. -/
def digits? (isDigit : Char → Bool) : List Char → Option (List Char)
  | [] => none
  | [d] => if isDigit d then some [d] else none
  | d :: '_' :: rest => if isDigit d then (digits? isDigit rest).map (d :: ·) else none
  | d :: rest => if isDigit d then (digits? isDigit rest).map (d :: ·) else none

/-- Is the character a digit to a base? -/
def isDigitOf (base : Nat) (c : Char) : Bool :=
  ((Json.hexValue? c).map fun n ↦ decide (n < base)).getD false

/-- The value of a row of digits to a base. -/
def natOf (base : Nat) (cs : List Char) : Nat :=
  cs.foldl (fun n c ↦ base * n + (Json.hexValue? c).getD 0) 0

/-- A whole number that fits into 64 bits with a sign. -/
def fitting? (n : Int) : Option Document :=
  if -(Number.twoTo 63 : Int) ≤ n ∧ n < Number.twoTo 63 then some (.int n) else none

/-- A row of digits without a zero in front, unless it is the only one. -/
def wholeDigits? (cs : List Char) : Option (List Char) :=
  (digits? isPlainDigit cs).filter fun ds ↦ ds.length == 1 || ds.head? != some '0'

/-- A double, from its digits and its power of ten.  A number beyond all doubles is none; below all of
them it is the negative infinity. -/
def double? (negative : Bool) (whole fraction : List Char) (exponent : Int) : Option Document :=
  let x := Number.floatOfPower (Number.natOfDigits (whole ++ fraction))
    (exponent - fraction.length)
  if x.isInf && !negative then none
  else some (.float (Number.floatTextWithPoint (if negative then -x else x)))

/-- A power of ten after the letter `e`. -/
def power? (cs : List Char) : Option Int :=
  match cs with
  | '-' :: rest => (digits? isPlainDigit rest).map fun ds ↦ -(Number.natOfDigits ds : Int)
  | '+' :: rest => (digits? isPlainDigit rest).map fun ds ↦ (Number.natOfDigits ds : Int)
  | rest => (digits? isPlainDigit rest).map fun ds ↦ (Number.natOfDigits ds : Int)

/-- A number without its sign. -/
def unsigned? (negative : Bool) (cs : List Char) : Option Document := do
  let isExponent (c : Char) : Bool := c == 'e' || c == 'E'
  let front := cs.takeWhile fun c ↦ !isExponent c
  let exponent ← match cs.dropWhile fun c ↦ !isExponent c with
    | [] => some none
    | _ :: rest => (power? rest).map some
  let whole := front.takeWhile (· != '.')
  let fraction ← match front.dropWhile (· != '.') with
    | [] => some none
    | _ :: rest => (digits? isPlainDigit rest).map some
  let whole ← wholeDigits? whole
  if fraction.isNone && exponent.isNone then
    let n : Int := Number.natOfDigits whole
    fitting? (if negative then -n else n)
  else double? negative whole (fraction.getD []) (exponent.getD 0)

/-- What a word that is no string stands for. -/
def word? (cs : List Char) : Option Document :=
  if cs = "true".toList then some (.bool true)
  else if cs = "false".toList then some (.bool false)
  else
    match cs with
    | '0' :: 'x' :: rest =>
      (digits? (isDigitOf 16) rest).bind fun ds ↦ fitting? (natOf 16 ds)
    | '0' :: 'o' :: rest => (digits? (isDigitOf 8) rest).bind fun ds ↦ fitting? (natOf 8 ds)
    | '0' :: 'b' :: rest => (digits? (isDigitOf 2) rest).bind fun ds ↦ fitting? (natOf 2 ds)
    | _ =>
      let (negative, rest) := match cs with
        | '-' :: rest => (true, rest)
        | '+' :: rest => (false, rest)
        | _ => (false, cs)
      if rest = "inf".toList then some (.float (Number.signText negative ++ "inf"))
      else if rest = "nan".toList then some (.float "NaN")
      else unsigned? negative rest

/-- The characters of words that are no strings. -/
def isWordChar (c : Char) : Bool :=
  isPlainLetter c || isPlainDigit c || c == '+' || c == '-' || c == '_' || c == '.' || c == ':'

/-! ## Keys and values -/

/-- The characters of keys without quotes. -/
def isKeyChar (c : Char) : Bool := isPlainLetter c || isPlainDigit c || c == '_' || c == '-'

/-- A key, and what follows it. -/
def key? (cs : List Char) : Option (String × List Char) :=
  match cs with
  | '"' :: rest => do
    let (text, rest) ← basicString? (rest.length + 1) rest
    some (String.ofList text, rest)
  | '\x27' :: rest => do
    let (text, rest) ← literalString? rest
    some (String.ofList text, rest)
  | _ =>
    let word := cs.takeWhile isKeyChar
    if word.isEmpty then none else some (String.ofList word, cs.drop word.length)

/-- The members of a table with one more, whose key must be new. -/
def insert? (members : List (Option String × Document)) (key : String) (value : Document) :
    Option (List (Option String × Document)) :=
  if members.any fun m ↦ m.1 == some key then none else some (members ++ [(some key, value)])

/-- A string, a number or a truth value, and what follows it. -/
def scalar? (cs : List Char) : Option (Document × List Char) :=
  match cs with
  | '"' :: _ | '\x27' :: _ => do
    let (text, rest) ← string? cs
    some (.string (String.ofList text), rest)
  | _ => do
    let word := cs.takeWhile isWordChar
    let d ← word? word
    some (d, cs.drop word.length)

/-- How many arrays and tables in braces may stand within each other. -/
def maxNesting : Nat := 79

mutual

/-- A value, and what follows it; `room` is how many more arrays and tables may be opened. -/
def value? : (fuel room : Nat) → List Char → Option (Document × List Char)
  | 0, _, _ => none
  | _ + 1, 0, '[' :: _ => none
  | _ + 1, 0, '{' :: _ => none
  | fuel + 1, room + 1, '[' :: rest => do
    let (items, rest) ← items? fuel room rest
    some (.list items true, rest)
  | fuel + 1, room + 1, '{' :: rest =>
    match dropSpaces rest with
    | '}' :: rest => some (.table [] true, rest)
    | _ => do
      let (members, rest) ← members? fuel room [] rest
      some (.table members true, rest)
  | _ + 1, _, cs => scalar? cs

/-- The items of an array up to its closing bracket. -/
def items? : (fuel room : Nat) → List Char → Option (List Document × List Char)
  | 0, _, _ => none
  | fuel + 1, room, cs => do
    match ← dropFiller? (cs.length + 1) cs with
    | ']' :: rest => some ([], rest)
    | cs =>
      let (item, rest) ← value? fuel room cs
      match ← dropFiller? (rest.length + 1) rest with
      | ']' :: rest => some ([item], rest)
      | ',' :: rest =>
        let (items, rest) ← items? fuel room rest
        some (item :: items, rest)
      | _ => none

/-- The members of a table in braces after those in `before`, up to its closing brace. -/
def members? : (fuel room : Nat) → (before : List (Option String × Document)) → List Char →
    Option (List (Option String × Document) × List Char)
  | 0, _, _, _ => none
  | fuel + 1, room, before, cs => do
    let (key, rest) ← key? (dropSpaces cs)
    match dropSpaces rest with
    | '=' :: rest =>
      let (value, rest) ← value? fuel room (dropSpaces rest)
      let members ← insert? before key value
      match dropSpaces rest with
      | '}' :: rest => some (members, rest)
      | ',' :: rest => members? fuel room members rest
      | _ => none
    | _ => none

end

/-! ## Texts -/

/-- A table under construction: its own members, and the section that is open, if any. -/
structure Building where
  /-- The members so far; a section is one of them. -/
  members : List (Option String × Document)
  /-- The name of the open section and its members. -/
  table? : Option (String × List (Option String × Document))

namespace Building

/-- The members, with the open section among them. -/
def closed (b : Building) : List (Option String × Document) :=
  match b.table? with
  | none => b.members
  | some (name, members) => b.members ++ [(some name, .table members true)]

/-- Opens a section of a new name. -/
def openSection? (b : Building) (name : String) : Option Building :=
  if b.closed.any fun m ↦ m.1 == some name then none else some ⟨b.closed, some (name, [])⟩

/-- Adds a member to the open section or to the table. -/
def add? (b : Building) (key : String) (value : Document) : Option Building :=
  match b.table? with
  | none => (insert? b.members key value).map fun members ↦ ⟨members, none⟩
  | some (name, members) =>
    (insert? members key value).map fun members ↦ ⟨b.members, some (name, members)⟩

end Building

/-- Reads the lines of a text, `fuel` at most. -/
def readLines : (fuel : Nat) → Building → List Char → Option Building
  | 0, _, _ => none
  | fuel + 1, b, cs =>
    match dropSpaces cs with
    | [] => some b
    | '[' :: rest => do
      let (name, rest) ← key? (dropSpaces rest)
      match dropSpaces rest with
      | ']' :: rest =>
        let b ← b.openSection? name
        readLines fuel b (← dropLineEnd? rest)
      | _ => none
    | c :: rest =>
      if c = '#' ∨ (afterBreak? (c :: rest)).isSome then do
        readLines fuel b (← dropLineEnd? (c :: rest))
      else do
        let (key, rest) ← key? (c :: rest)
        match dropSpaces rest with
        | '=' :: rest =>
          let cs := dropSpaces rest
          let (value, rest) ← value? (2 * cs.length + 2) maxNesting cs
          let b ← b.add? key value
          readLines fuel b (← dropLineEnd? rest)
        | _ => none

end Toml

/-- The table of a text, if it keeps to the rules. -/
def Document.ofToml? (text : String) : Option Document :=
  let cs := match text.toList with
    | '\uFEFF' :: rest => rest
    | cs => cs
  (Toml.readLines (cs.length + 1) ⟨[], none⟩ cs).map fun b ↦ .table b.closed true

end Dossier
