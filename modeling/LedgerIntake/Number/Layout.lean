import LedgerIntake.Number.Shortest

/-!
# Layouts of decimal text

The digits of a number are settled by `Binary64.shortest`; a layout settles the rest: which powers
of ten are written out in full, how an exponent is marked, and what stands for values without
digits.
-/

namespace LedgerIntake

/-- The decisions of one way to write binary numbers. -/
structure Layout where
  /-- Which of two equally near shortest decimals is written. -/
  tie : Tie
  /-- Whether a number whose first digit has this power of ten is written without an exponent. -/
  inFull : Int → Bool
  /-- What follows an integer written in full. -/
  wholeEnding : String
  /-- The letter before an exponent. -/
  exponentMark : String
  /-- What stands before an exponent that is not negative. -/
  exponentPlus : String
  /-- What stands for a value that is not a number. -/
  notNumber : String
  /-- What stands for the positive infinity. -/
  infinity : String

namespace Layout

/-- Digits with the point where the power of ten of the first one puts it. -/
def full (layout : Layout) (digits : List Char) (leading : Int) : String :=
  if leading < 0 then
    "0." ++ String.ofList (List.replicate (-leading - 1).toNat '0' ++ digits)
  else
    let whole := leading.toNat + 1
    if digits.length ≤ whole then
      String.ofList (digits ++ List.replicate (whole - digits.length) '0') ++ layout.wholeEnding
    else String.ofList (digits.take whole) ++ "." ++ String.ofList (digits.drop whole)

/-- One digit, the others after a point, and the exponent. -/
def scientific (layout : Layout) (digits : List Char) (leading : Int) : String :=
  String.ofList (digits.take 1)
    ++ (if digits.length ≤ 1 then "" else "." ++ String.ofList (digits.drop 1))
    ++ layout.exponentMark ++ (if leading < 0 then "-" else layout.exponentPlus)
    ++ String.ofList (Nat.toDigits 10 leading.natAbs)

/-- The text of digits whose first has the given power of ten. -/
def place (layout : Layout) (digits : List Char) (leading : Int) : String :=
  if layout.inFull leading then layout.full digits leading else layout.scientific digits leading

/-- The text of a number. -/
def write (layout : Layout) (x : Binary64) : String :=
  if x.isNaN then layout.notNumber
  else
    let sign := if x.isNegative then "-" else ""
    if x.isInfinite then sign ++ layout.infinity
    else if x.magnitude = 0 then sign ++ layout.place ['0'] 0
    else
      let decimal := x.shortest layout.tie
      sign ++ layout.place decimal.digits decimal.leading

/-- Measurements: every number in full, an integer without a point. -/
def measurement : Layout where
  tie := .greater
  inFull := fun _ => true
  wholeEnding := ""
  exponentMark := "e"
  exponentPlus := ""
  notNumber := "NaN"
  infinity := "inf"

end Layout

end LedgerIntake
