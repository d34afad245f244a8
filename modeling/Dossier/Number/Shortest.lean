import Dossier.Number.Decimal
import Dossier.Number.Double
import Dossier.Number.Power

/-!
# The fewest digits that read back

Among the decimals `c · 10 ^ p` that are nearer to a double than to any other double, `shortest`
finds one with the fewest digits, and of several of that length the nearest to the double.  Two can be
equally near; a `Tie` says which of them it is then.

The decimals that read back as `m · 2 ^ q` fill an interval around it, which reaches half way to the
neighbours; its ends belong to it when `m` is even, since reading takes the even neighbour then.
For one digit, two digits and so on, the two neighbours of the double on the grid of decimals with
that many digits are tried: if any decimal of the grid is in the interval, so is one of these two.
Seventeen digits always do.
-/

set_option autoImplicit false

namespace Dossier.Number

/-- The decimal `coefficient · 10 ^ exponent`. -/
structure Scientific where
  /-- The digits. -/
  coefficient : Nat
  /-- The power of ten. -/
  exponent : Int
  deriving DecidableEq, Repr, Inhabited

/-- Which of two decimals is taken that are equally near. -/
inductive Tie where
  /-- The greater one. -/
  | up
  /-- The one with the even coefficient. -/
  | toEven
  deriving DecidableEq, Repr

namespace Shortest

/-- Two scales on which `c · 10 ^ p` and `a · 2 ^ q` are whole: the first number is the scaled
decimal, the second the scaled binary one. -/
def aligned (c : Nat) (p : Int) (a : Nat) (q : Int) : Nat × Nat :=
  (c * tenTo p.toNat * twoTo (-q).toNat, a * twoTo q.toNat * tenTo (-p).toNat)

/-- The interval of a double in quarters of `2 ^ q`: the lower end, the upper end, and whether they
belong to it.  Below a power of two the doubles stand twice as dense. -/
def interval (m : Nat) (q : Int) : Nat × Nat × Bool :=
  let low := if m = twoTo 52 ∧ Double.leastExponent < q then 4 * m - 1 else 4 * m - 2
  (low, 4 * m + 2, m % 2 == 0)

/-- Does `c · 10 ^ p` read back as `m · 2 ^ q`? -/
def readsBack (m : Nat) (q : Int) (c : Nat) (p : Int) : Bool :=
  let (low, high, closed) := interval m q
  let (c₁, l) := aligned c p low (q - 2)
  let (c₂, h) := aligned c p high (q - 2)
  if closed then decide (l ≤ c₁) && decide (c₂ ≤ h) else decide (l < c₁) && decide (c₂ < h)

/-- The power of ten of the leading digit of `m · 2 ^ q`, for `m` not zero. -/
def magnitude (m : Nat) (q : Int) : Int :=
  if 0 ≤ q then ((digitsOf (m * twoTo q.toNat)).length : Int) - 1
  else ((digitsOf (m * tenTo 400 / twoTo (-q).toNat)).length : Int) - 401

/-- The largest multiple of `10 ^ p` that is not above `m · 2 ^ q`. -/
def below (m : Nat) (q : Int) (p : Int) : Nat :=
  m * twoTo q.toNat * tenTo (-p).toNat / (twoTo (-q).toNat * tenTo p.toNat)

/-- Is the lower neighbour `c · 10 ^ p` of `m · 2 ^ q` taken, and not the one above it? -/
def takesLower (tie : Tie) (m : Nat) (q : Int) (c : Nat) (p : Int) : Bool :=
  let (d, v) := aligned (2 * c + 1) p (2 * m) q
  decide (v < d) || (decide (v = d) && tie == .toEven && c % 2 == 0)

/-- The neighbour of the double on the grid of multiples of `10 ^ p` that reads back, if one does;
of two, the nearer one, or the one of the tie. -/
def onGrid? (tie : Tie) (m : Nat) (q : Int) (p : Int) : Option Scientific :=
  let c := below m q p
  match readsBack m q c p, readsBack m q (c + 1) p with
  | true, true => some ⟨if takesLower tie m q c p then c else c + 1, p⟩
  | true, false => some ⟨c, p⟩
  | false, true => some ⟨c + 1, p⟩
  | false, false => none

/-- Tries grids that get finer, `fuel` at most. -/
def search (tie : Tie) (m : Nat) (q : Int) : (fuel : Nat) → Int → Scientific
  | 0, p => ⟨below m q p, p⟩
  | fuel + 1, p =>
    match onGrid? tie m q p with
    | some s => s
    | none => search tie m q fuel (p - 1)

/-- Moves the zeros that the coefficient ends with into the power of ten; `fuel` bounds their
count. -/
def strip : (fuel : Nat) → Scientific → Scientific
  | 0, s => s
  | fuel + 1, s =>
    if s.coefficient % 10 = 0 then strip fuel ⟨s.coefficient / 10, s.exponent + 1⟩ else s

end Shortest

/-- The nearest of the shortest decimals that read back as `m · 2 ^ q`, for `m` not zero.  Its
coefficient does not end with a zero. -/
def shortest (tie : Tie) (m : Nat) (q : Int) : Scientific :=
  Shortest.strip 18 (Shortest.search tie m q 17 (Shortest.magnitude m q))

/-! ## Notations -/

/-- A decimal without a power of ten: zeros are written out on either side of the point, and there
is no point after a whole number. -/
def positional (s : Scientific) : String :=
  let digits := digitsOf s.coefficient
  let zeros (n : Nat) : List Char := List.replicate n '0'
  String.ofList <|
    if 0 ≤ s.exponent then digits ++ zeros s.exponent.toNat
    else
      let places := (-s.exponent).toNat
      if digits.length ≤ places then '0' :: '.' :: (zeros (places - digits.length) ++ digits)
      else digits.take (digits.length - places) ++ '.' :: digits.drop (digits.length - places)

/-- A decimal without a power of ten, with a point and a zero after a whole number. -/
def pointed (s : Scientific) : String :=
  if 0 ≤ s.exponent then positional s ++ ".0" else positional s

/-- A decimal with a point if its leading digit is between the fifth place after it and the sixteenth
before it, and otherwise with a power of ten that has its sign. -/
def compact (s : Scientific) : String :=
  let digits := digitsOf s.coefficient
  let point : Int := digits.length + s.exponent
  if -5 < point ∧ point ≤ 16 then pointed s
  else
    let coefficient := match digits with
      | d :: e :: rest => d :: '.' :: e :: rest
      | _ => digits
    String.ofList coefficient ++ "e" ++ (if 0 < point then "+" else "") ++ intText (point - 1)

/-! ## Doubles -/

/-- A minus sign if there is one to write. -/
def signText (negative : Bool) : String := if negative then "-" else ""

/-- The text of a double in a notation. -/
def floatTextIn (notate : Scientific → String) (tie : Tie) (x : Float) : String :=
  match Double.ofFloat x with
  | .nan => "NaN"
  | .infinite negative => signText negative ++ "inf"
  | .finite negative m q =>
    signText negative ++ notate (if m = 0 then ⟨0, 0⟩ else shortest tie m q)

/-- A double with the fewest digits that read back, and no point after a whole number. -/
def floatText (x : Float) : String := floatTextIn positional .up x

/-- A double as `floatText` writes it, with a point and a zero after a whole number. -/
def floatTextWithPoint (x : Float) : String := floatTextIn pointed .up x

/-- A double in the compact notation. -/
def floatTextCompact (x : Float) : String := floatTextIn compact .toEven x

end Dossier.Number
