/-!
# Binary floating-point numbers of 64 bits

A number is its bit pattern, and its value is an exact natural number of units of 2⁻¹⁰⁷⁴: every
finite magnitude is `significand * 2 ^ scale` units. Each operation computes exactly in those units
and rounds once, to the nearest representable magnitude and to the even one of two equally near.
No machine arithmetic takes part, so every result is open to proof.
-/

namespace LedgerIntake

/-- A binary64 bit pattern. -/
structure Binary64 where
  bits : UInt64
deriving DecidableEq, Inhabited

namespace Binary64

/-- The bit that tells the sign. -/
def signBit : Nat := 0x8000000000000000

/-- The leading bit of a significand, which stands in no pattern; the
scale's field begins with it. -/
def leadingBit : Nat := 0x10000000000000

/-- Whether the sign bit is set. -/
def isNegative (x : Binary64) : Bool := decide (signBit ≤ x.bits.toNat)

/-- The pattern without its sign bit; magnitudes are ordered as their values are. -/
def magnitude (x : Binary64) : Nat := x.bits.toNat % signBit

/-- The magnitude of the infinities; greater magnitudes are not numbers. -/
def infinite : Nat := 2047 * leadingBit

/-- Neither an infinity nor a non-number. -/
def isFinite (x : Binary64) : Bool := decide (x.magnitude < infinite)

/-- Not a number. -/
def isNaN (x : Binary64) : Bool := decide (infinite < x.magnitude)

/-- One of the two infinities. -/
def isInfinite (x : Binary64) : Bool := decide (x.magnitude = infinite)

/-- The number of a sign and a magnitude below 2⁶³. -/
def ofMagnitude (negative : Bool) (magnitude : Nat) : Binary64 :=
  ⟨UInt64.ofNat ((if negative then signBit else 0) + magnitude)⟩

/-- The quiet non-number that undefined sums give. -/
def nan : Binary64 := ofMagnitude false (infinite + leadingBit / 2)

/-- The integer that is scaled by a power of two: below 2⁵³, and at least 2⁵²
unless the number is subnormal. -/
def significand (x : Binary64) : Nat :=
  if x.magnitude < leadingBit then x.magnitude else leadingBit + x.magnitude % leadingBit

/-- The power of two by which the significand is scaled, counted from the smallest. -/
def scale (x : Binary64) : Nat := x.magnitude / leadingBit - 1

/-- The finite magnitude in units of 2⁻¹⁰⁷⁴. -/
def units (x : Binary64) : Nat := x.significand <<< x.scale

/-- Units in the number one. -/
def one : Nat := 1 <<< 1074

/-- The finite value in units, with its sign. -/
def signedUnits (x : Binary64) : Int := if x.isNegative then -x.units else x.units

/-- The integer nearest to `numerator / denominator`, the even one if two are equally near. -/
def roundDivision (numerator denominator : Nat) : Nat :=
  let quotient := numerator / denominator
  let twice := 2 * (numerator % denominator)
  if twice < denominator then quotient
  else if denominator < twice then quotient + 1
  else quotient + quotient % 2

/-- The magnitude nearest to `numerator / denominator` units. The scale keeps 53 bits of the
quotient; adding the rounded significand to the scale's field lets a carry out of the significand
raise the scale, and whatever passes the greatest number is infinite. -/
def nearest (numerator denominator : Nat) : Nat :=
  let scale := (numerator / denominator).log2 - 52
  min infinite (scale * leadingBit + roundDivision numerator (denominator <<< scale))

/-- The number nearest to a signed fraction. -/
def ofFraction (negative : Bool) (numerator denominator : Nat) : Binary64 :=
  ofMagnitude negative (nearest (numerator * one) denominator)

/-- The number nearest to a natural number. -/
def ofNat (value : Nat) : Binary64 := ofFraction false value 1

/-- The number nearest to an integer. -/
def ofInt (value : Int) : Binary64 := ofFraction (decide (value < 0)) value.natAbs 1

/-- The same magnitude with the other sign. -/
def neg (x : Binary64) : Binary64 := ofMagnitude (!x.isNegative) x.magnitude

/-- The rounded product of two finite numbers. -/
def mul (x y : Binary64) : Binary64 :=
  ofMagnitude (x.isNegative != y.isNegative) (nearest (x.units * y.units) one)

/-- The rounded quotient of two finite numbers, the second not zero. -/
def div (x y : Binary64) : Binary64 :=
  ofMagnitude (x.isNegative != y.isNegative) (nearest (x.units * one) y.units)

/-- The rounded sum. Opposite infinities have none; a sum of zero is
negative only if both terms are. -/
def add (x y : Binary64) : Binary64 :=
  if x.isNaN || y.isNaN then nan
  else if x.isInfinite then (if y.isInfinite && x.isNegative != y.isNegative then nan else x)
  else if y.isInfinite then y
  else
    let sum := x.signedUnits + y.signedUnits
    if sum = 0 then ofMagnitude (x.isNegative && y.isNegative) 0
    else ofMagnitude (decide (sum < 0)) (nearest sum.natAbs 1)

/-- Place on the number line; both zeros share one. -/
def place (x : Binary64) : Int := if x.isNegative then -x.magnitude else x.magnitude

/-- At most; false as soon as one side is not a number. -/
def atMost (x y : Binary64) : Bool := !x.isNaN && !y.isNaN && decide (x.place ≤ y.place)

/-- The integer that a finite number equals, if it equals one. -/
def toInt? (x : Binary64) : Option Int :=
  if x.units % one = 0 then
    some (if x.isNegative then -((x.units / one : Nat) : Int) else ((x.units / one : Nat) : Int))
  else none

/-- The eight bytes of the pattern as a number. -/
def toNat (x : Binary64) : Nat := x.bits.toNat

/-- The number whose pattern is given as a number below 2⁶⁴. -/
def ofBits (pattern : Nat) : Binary64 := ⟨UInt64.ofNat pattern⟩

end Binary64

end LedgerIntake
