import Dossier.Number.Power
import Dossier.Text.Letter

/-!
# Decimal numerals

Reading numbers that are written with the digits `0` to `9`, and writing them.

* `natOfDigits` is the value of a row of digits, `digitsOf` the shortest row with a value.
* `int?` reads an optional sign and at least one digit, and refuses what a range does not hold.
* `floatOfDigits` is the double nearest to a row of digits with a point in it.
-/

set_option autoImplicit false

namespace Dossier.Number

open Text (isPlainDigit)

/-- The value of a digit. -/
def digitValue (c : Char) : Nat := c.toNat - '0'.toNat

/-- The value of a row of digits, the highest first. -/
def natOfDigits (cs : List Char) : Nat := cs.foldl (fun n c ↦ 10 * n + digitValue c) 0

/-- The digit with a value below ten. -/
def digitChar (n : Nat) : Char := Char.ofNat ('0'.toNat + n)

/-- The digits of a number before those in `rest`; `fuel` bounds their count. -/
def digitsBefore : (fuel : Nat) → Nat → List Char → List Char
  | 0, _, rest => rest
  | fuel + 1, n, rest =>
    if n < 10 then digitChar n :: rest
    else digitsBefore fuel (n / 10) (digitChar (n % 10) :: rest)

/-- The digits of a number, without zeros in front. -/
def digitsOf (n : Nat) : List Char := digitsBefore (n.log2 + 1) n []

/-- A row of digits, at least one. -/
def nat? (cs : List Char) : Option Nat :=
  if !cs.isEmpty && cs.all isPlainDigit then some (natOfDigits cs) else none

/-- A number that an optional sign and at least one digit stand for, if it is from `low` to
`high`. -/
def int? (low high : Int) (cs : List Char) : Option Int :=
  let value? : Option Int := match cs with
    | '-' :: digits => (nat? digits).map fun n ↦ -(n : Int)
    | '+' :: digits => (nat? digits).map fun n ↦ (n : Int)
    | digits => (nat? digits).map fun n ↦ (n : Int)
  value?.filter fun n ↦ decide (low ≤ n) && decide (n ≤ high)

/-- The digits of a whole number, after a minus sign if it is negative. -/
def intText (n : Int) : String :=
  let digits := String.ofList (digitsOf n.natAbs)
  if n < 0 then "-" ++ digits else digits

/-- The double nearest to `m · 10 ^ e`.  Powers far beyond the range of doubles are not computed:
the result is infinite above it and zero below. -/
def floatOfPower (m : Nat) (e : Int) : Float :=
  let point : Int := (digitsOf m).length + e
  if m = 0 ∨ point < -400 then 0.0
  else if 400 < point then 1.0 / 0.0
  else if e < 0 then Float.ofScientific m true e.natAbs
  else Float.ofScientific m false e.natAbs

/-- A number with an optional sign, an optional fraction and an optional power of ten after the
letter `e`. -/
def float? (cs : List Char) : Option Float := do
  let (negative, cs) := match cs with
    | '-' :: rest => (true, rest)
    | '+' :: rest => (false, rest)
    | _ => (false, cs)
  let whole := cs.takeWhile isPlainDigit
  let cs := cs.drop whole.length
  let (fraction, cs) := match cs with
    | '.' :: rest => (rest.takeWhile isPlainDigit, rest.dropWhile isPlainDigit)
    | _ => ([], cs)
  let exponent ← match cs with
    | [] => some 0
    | e :: rest => if e = 'e' ∨ e = 'E' then int? (-tenTo 18) (tenTo 18) rest else none
  guard !(whole ++ fraction).isEmpty
  let x := floatOfPower (natOfDigits (whole ++ fraction)) (exponent - fraction.length)
  some (if negative then -x else x)

/-- The double nearest to a row of digits in which a point may stand. -/
def floatOfDigits (cs : List Char) : Float :=
  let whole := cs.takeWhile isPlainDigit
  let fraction := (cs.drop whole.length).drop 1
  Float.ofScientific (natOfDigits (whole ++ fraction)) true fraction.length

end Dossier.Number
