import LedgerIntake.Number.Binary64

/-!
# Shortest decimals

The decimal written for a binary number has the fewest digits among those that read back as that
number, and of these it is the nearest. The search compares whole numbers only: every finite value
is an integer number of units of 10⁻¹⁰⁷⁴, and so is every decimal that it meets. The exact expansion
ends the search, so some decimal is always found, and it always lies in the interval that rounds to
the number.
-/

namespace LedgerIntake

/-- The positive number `coefficient * 10 ^ exponent`. -/
structure Decimal where
  coefficient : Nat
  exponent : Int
deriving DecidableEq, Inhabited

namespace Decimal

/-- The same number with no zero at the end of its coefficient. -/
def trim (decimal : Decimal) : Decimal :=
  if decimal.coefficient % 10 = 0 ∧ decimal.coefficient ≠ 0 then
    trim ⟨decimal.coefficient / 10, decimal.exponent + 1⟩
  else decimal
termination_by decimal.coefficient
decreasing_by omega

/-- The digits of the coefficient. -/
def digits (decimal : Decimal) : List Char := Nat.toDigits 10 decimal.coefficient

/-- The power of ten of the first digit. -/
def leading (decimal : Decimal) : Int := decimal.digits.length - 1 + decimal.exponent

end Decimal

/-- Which of two equally near decimals is written. -/
inductive Tie where
  | greater
  | even
deriving DecidableEq

namespace Binary64

/-- Units of 10⁻¹⁰⁷⁴ in one unit of 2⁻¹⁰⁷⁴. -/
def decimalUnit : Nat := Nat.pow 5 1074

/-- A quarter of the distance to the neighbours, in quarters of 10⁻¹⁰⁷⁴: numbers within two of these
steps round to the number, except that below a power of two the next number is half as far. -/
def step (x : Binary64) : Nat := decimalUnit <<< x.scale

/-- The exact value in quarters of 10⁻¹⁰⁷⁴. -/
def quarters (x : Binary64) : Nat := x.significand * (4 * x.step)

/-- The least number, in quarters, of those that round to this one. -/
def lowest (x : Binary64) : Nat :=
  x.quarters - (if x.significand = leadingBit ∧ 0 < x.scale then x.step else 2 * x.step)

/-- The greatest number, in quarters, of those that round to this one. -/
def highest (x : Binary64) : Nat := x.quarters + 2 * x.step

/-- Whether a number of quarters rounds to this number. A bound itself
does if it is the even one. -/
def roundsHere (x : Binary64) (quarters : Nat) : Bool :=
  if x.significand % 2 = 0 then decide (x.lowest ≤ quarters ∧ quarters ≤ x.highest)
  else decide (x.lowest < quarters ∧ quarters < x.highest)

/-- The nearer of the multiples below and above the value, if it reads back; the
other, if only that one does. -/
def onGrid (tie : Tie) (x : Binary64) (grid : Nat) : Option Nat :=
  let below := x.quarters / (4 * grid)
  let above := below + 1
  match x.roundsHere (below * (4 * grid)), x.roundsHere (above * (4 * grid)) with
  | false, false => none
  | true, false => some below
  | false, true => some above
  | true, true =>
    let fromBelow := x.quarters - below * (4 * grid)
    let fromAbove := above * (4 * grid) - x.quarters
    if fromBelow < fromAbove then some below
    else if fromAbove < fromBelow then some above
    else match tie with
      | .greater => some above
      | .even => some (if below % 2 = 0 then below else above)

/-- Tries the grids of 10 ^ (places - 1074) downwards; the finest one holds the value itself. -/
def searchGrids (tie : Tie) (x : Binary64) : (places : Nat) → Decimal
  | 0 => ⟨x.quarters / 4, -1074⟩
  | places + 1 =>
    match x.onGrid tie (Nat.pow 10 (places + 1)) with
    | some coefficient => ⟨coefficient, (places + 1 : Nat) - 1074⟩
    | none => searchGrids tie x places

/-- The shortest decimal of a finite number other than zero. The first grid lies above the value:
1234 / 4096 exceeds the decimal logarithm of two. -/
def shortest (tie : Tie) (x : Binary64) : Decimal :=
  (x.searchGrids tie ((x.quarters / 4).log2 * 1234 / 4096 + 1)).trim

end Binary64

end LedgerIntake
