import Dossier.Number.Power

/-!
# Doubles as exact numbers

A finite double is a sign and a whole number `m` times a power of two `2 ^ q`.  `Double.ofFloat`
takes it apart, and exact arithmetic on `m` and `q` gives what rounding operations cannot: the
remainder of a division, the nearest whole number, the text with the fewest digits.
-/

set_option autoImplicit false

namespace Dossier.Number

/-- What a double stands for. -/
inductive Double where
  /-- No number. -/
  | nan
  | infinite (negative : Bool)
  /-- The number `m · 2 ^ q`, or its negative. -/
  | finite (negative : Bool) (m : Nat) (q : Int)
  deriving Repr, Inhabited

namespace Double

/-- The least power of two of a finite double. -/
def leastExponent : Int := -1074

/-- Takes a double apart. -/
def ofFloat (x : Float) : Double :=
  let bits := x.toBits.toNat
  let negative := decide (twoTo 63 ≤ bits)
  let exponent := bits / twoTo 52 % twoTo 11
  let fraction := bits % twoTo 52
  if exponent = 2047 then
    if fraction = 0 then infinite negative else nan
  else if exponent = 0 then finite negative fraction leastExponent
  else finite negative (fraction + twoTo 52) (leastExponent + ((exponent - 1 : Nat) : Int))

/-- The bits of `m · 2 ^ q` without a sign, for `m` below `2 ^ 53` and `q` not below
`leastExponent`: as many factors of two as fit are moved from the power into `m`. -/
def bitsOf (m : Nat) (q : Int) : Nat :=
  if m = 0 then 0
  else
    let room := (q - leastExponent).toNat
    let shift := min (52 - m.log2) room
    let m' := m * twoTo shift
    if m' < twoTo 52 then m' else (room - shift) * twoTo 52 + m'

/-- Puts a double together again. -/
def toFloat : Double → Float
  | nan => 0.0 / 0.0
  | infinite negative => if negative then -1.0 / 0.0 else 1.0 / 0.0
  | finite negative m q =>
    Float.ofBits (UInt64.ofNat ((if negative then twoTo 63 else 0) + bitsOf m q))

/-- What is left of `m · 2 ^ q` after taking away `n · 2 ^ r` as often as it fits, as a multiple of
the smaller of the two powers. -/
def remainder (m : Nat) (q : Int) (n : Nat) (r : Int) : Nat × Int :=
  let p := min q r
  (m * twoTo (q - p).toNat % (n * twoTo (r - p).toNat), p)

/-- The whole number nearest to `m · 2 ^ q`; of two that are equally near, the even one. -/
def nearest (m : Nat) (q : Int) : Nat :=
  if 0 ≤ q then m * twoTo q.toNat
  else
    let unit := twoTo (-q).toNat
    let floor := m / unit
    let twice := 2 * (m % unit)
    if twice < unit then floor
    else if unit < twice then floor + 1
    else floor + floor % 2

end Double

/-! ## Operations -/

/-- The exact remainder of the division of `x` by `y` toward zero, with the sign of `x`. -/
def floatMod (x y : Float) : Float :=
  match Double.ofFloat x, Double.ofFloat y with
  | .finite _ _ _, .infinite _ => x
  | .finite negative m q, .finite _ n r =>
    if n = 0 then Double.nan.toFloat
    else
      let (k, p) := Double.remainder m q n r
      (Double.finite negative k p).toFloat
  | _, _ => Double.nan.toFloat

/-- The 64-bit number nearest to `x`, the even one of two; beyond the range its end, and zero for
what is no number. -/
def floatToInt (x : Float) : Int64 :=
  match Double.ofFloat x with
  | .nan => 0
  | .infinite negative => if negative then Int64.minValue else Int64.maxValue
  | .finite negative m q =>
    let n : Int := if negative then -(Double.nearest m q : Int) else Double.nearest m q
    if n < Int64.minValue.toInt then Int64.minValue
    else if Int64.maxValue.toInt < n then Int64.maxValue
    else Int64.ofInt n

/-- The double nearest to a 64-bit number. -/
def floatOfInt (n : Int64) : Float :=
  let size := UInt64.toFloat (UInt64.ofNat n.toInt.natAbs)
  if n.toInt < 0 then -size else size

/-- The greater of two doubles.  Of two that compare equal, as the zeros do whatever their signs, it is
the second; what is no number loses. -/
def floatMax (x y : Float) : Float :=
  if x.isNaN || decide (x ≤ y) then y else x

/-- The smaller of two doubles.  Of two that compare equal, as the zeros do whatever their signs, it is
the second; what is no number loses. -/
def floatMin (x y : Float) : Float :=
  if x.isNaN || decide (y ≤ x) then y else x

/-- The double without its sign. -/
def floatAbs (x : Float) : Float :=
  Float.ofBits (UInt64.ofNat (x.toBits.toNat % twoTo 63))

end Dossier.Number
