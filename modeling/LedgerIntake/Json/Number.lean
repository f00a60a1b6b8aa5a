import LedgerIntake.Number.Layout

/-!
# JSON numbers

A number is a natural number below 2⁶⁴, a negative integer of 64 bits, or a finite binary64. Each
value has one natural or negative form, so two integers are equal as numbers exactly when they are
equal here.

Reading takes the written digits into a significand of 64 bits and a power of ten, drops the digits
that no longer fit, and scales with at most one rounding for each factor. For long texts the result
is therefore not always the binary64 nearest to what is written.
-/

namespace LedgerIntake.Json

/-- A number of a JSON document. -/
inductive Number where
  /-- An integer from zero. -/
  | natural (value : UInt64)
  /-- The integer `-(below + 1)`. -/
  | negative (below : Fin 0x8000000000000000)
  /-- A binary64 that is neither infinite nor a non-number. -/
  | float (value : Binary64) (finite : value.isFinite = true)
deriving DecidableEq

/-- Zero stands in where a number is asked for and none matters. -/
instance : Inhabited Number := ⟨.natural 0⟩

namespace Number

/-- The natural number, reduced to 64 bits. -/
def ofNat (value : Nat) : Number := .natural (UInt64.ofNat value)

/-- The integer, if it has a form without a point: at least -2⁶³ and below 2⁶⁴. -/
def ofInt? (value : Int) : Option Number :=
  if 0 ≤ value then
    if value < UInt64.size then some (.natural (UInt64.ofNat value.toNat)) else none
  else if inRange : (-value - 1).toNat < 0x8000000000000000
    then some (.negative ⟨(-value - 1).toNat, inRange⟩)
  else none

/-- A binary64 as a JSON number; infinities and non-numbers have none. -/
def ofBinary64? (value : Binary64) : Option Number :=
  if finite : value.isFinite = true then some (.float value finite) else none

/-- The integer written without a point. -/
def integer? : Number → Option Int
  | .natural value => some value.toNat
  | .negative below => some (-(below.val : Int) - 1)
  | .float _ _ => none

/-- The binary64, if the number was read as one. -/
def float? : Number → Option Binary64
  | .float value _ => some value
  | _ => none

/-- The layout of binary numbers in JSON text: in full from 10⁻⁵ up to 10¹⁶ and always with a
fraction, otherwise with a signed exponent. -/
def layout : Layout where
  tie := .even
  inFull := fun leading => decide (-5 ≤ leading ∧ leading < 16)
  wholeEnding := ".0"
  exponentMark := "e"
  exponentPlus := "+"
  notNumber := "null"
  infinity := "null"

/-- The JSON text of a number. -/
def text : Number → String
  | .natural value => value.toNat.repr
  | .negative below => "-" ++ (below.val + 1).repr
  | .float value _ => layout.write value

/-- What is written of a number: sign, digits before and after the point, and the power of ten. -/
structure Literal where
  negative : Bool
  whole : List Char
  fraction : Option (List Char)
  exponent : Option (Bool × List Char)

namespace Literal

/-- The digits at the front of a text, at least one, and what follows them. -/
def digits? (text : List Char) : Option (List Char × List Char) :=
  match text.takeWhile Char.isDigit with
  | [] => none
  | digits => some (digits, text.dropWhile Char.isDigit)

/-- A point and digits, or nothing. -/
def scanFraction : List Char → Option (Option (List Char) × List Char)
  | '.' :: rest => (digits? rest).map fun (digits, rest) => (some digits, rest)
  | text => some (none, text)

/-- The mark `e` or `E`, a sign or none, and digits; or nothing. The flag tells a negative power. -/
def scanExponent : List Char → Option (Option (Bool × List Char) × List Char)
  | mark :: rest =>
    if mark = 'e' ∨ mark = 'E' then
      let (negative, rest) : Bool × List Char :=
        match rest with
        | '-' :: rest => (true, rest)
        | '+' :: rest => (false, rest)
        | rest => (false, rest)
      (digits? rest).map fun (digits, rest) => (some (negative, digits), rest)
    else some (none, mark :: rest)
  | [] => some (none, [])

/-- The number without its sign at the front of a text, and what follows it. No
digit may follow a first zero. -/
def scanUnsigned (negative : Bool) (text : List Char) : Option (Literal × List Char) :=
  match digits? text with
  | none => none
  | some (whole, rest) =>
    if whole.head? = some '0' ∧ 1 < whole.length then none
    else
      match scanFraction rest with
      | none => none
      | some (fraction, rest) =>
        (scanExponent rest).map fun (exponent, rest) =>
          (⟨negative, whole, fraction, exponent⟩, rest)

/-- The number at the front of a text and what follows it. -/
def scan? : List Char → Option (Literal × List Char)
  | '-' :: rest => scanUnsigned true rest
  | text => scanUnsigned false text

/-- What a whole text writes. -/
def read? (text : List Char) : Option Literal :=
  match scan? text with
  | some (literal, []) => some literal
  | _ => none

/-- The greatest significand. -/
def greatest : Nat := UInt64.size - 1

/-- A significand and the power of ten that scales it. -/
structure Scaled where
  significand : Nat
  power : Int

/-- The value of an ASCII digit. -/
def digitValue (digit : Char) : Nat := digit.toNat - 48

/-- Takes in a digit before the point. The first one that does not fit and all later ones are
dropped, and each of them raises the power. -/
def takeWhole (scaled : Scaled) (digit : Char) : Scaled :=
  let extended := scaled.significand * 10 + digitValue digit
  if scaled.power = 0 ∧ extended ≤ greatest then { scaled with significand := extended }
  else { scaled with power := scaled.power + 1 }

/-- Takes in the digits after the point, up to the first that does not fit. -/
def takeFraction (scaled : Scaled) : List Char → Scaled
  | [] => scaled
  | digit :: rest =>
    let extended := scaled.significand * 10 + digitValue digit
    if extended ≤ greatest then takeFraction ⟨extended, scaled.power - 1⟩ rest else scaled

/-- The natural number that digits denote. -/
def natural (digits : List Char) : Nat :=
  digits.foldl (fun value digit => value * 10 + digitValue digit) 0

/-- The power of ten as a binary64. -/
def powerOfTen (power : Nat) : Binary64 := .ofNat (Nat.pow 10 power)

/-- The greatest power of ten that a binary64 holds. -/
def greatestPower : Nat := 308

/-- Divides by a power of ten, at most `10 ^ 308` at a time; zero stays what it is. -/
def scaleDown (value : Binary64) (power : Nat) : Binary64 :=
  if power ≤ greatestPower then value.div (powerOfTen power)
  else if value.magnitude = 0 then value
  else scaleDown (value.div (powerOfTen greatestPower)) (power - greatestPower)
termination_by power
decreasing_by simp only [greatestPower] at *; omega

/-- Multiplies by a power of ten; `none` if the product is too large for a binary64. -/
def scaleUp (value : Binary64) (power : Nat) : Option Binary64 :=
  if power ≤ greatestPower then
    let product := value.mul (powerOfTen power)
    if product.isFinite then some product else none
  else if value.magnitude = 0 then some value
  else none

/-- The magnitude of a significand and a power of ten. -/
def Scaled.magnitude? (scaled : Scaled) : Option Binary64 :=
  let value := Binary64.ofNat scaled.significand
  if scaled.power < 0 then some (scaleDown value scaled.power.natAbs)
  else scaleUp value scaled.power.natAbs

/-- The greatest power of ten that is counted. -/
def powerLimit : Nat := 0x7FFFFFFF

/-- The range in which powers of ten are counted; sums beyond it stay at its ends. -/
def clampPower (power : Int) : Int := max (-powerLimit - 1) (min powerLimit power)

/-- The digits as a significand and a power of ten, before any written exponent. -/
def scaled (literal : Literal) : Scaled :=
  takeFraction (literal.whole.foldl takeWhole ⟨0, 0⟩) (literal.fraction.getD [])

/-- The magnitude that is written. A written exponent of 2³¹ or more gives zero if it is negative or
if the significand is zero, and no number otherwise. -/
def magnitude? (literal : Literal) : Option Binary64 :=
  let scaled := literal.scaled
  match literal.exponent with
  | none => scaled.magnitude?
  | some (negative, digits) =>
    let written := natural digits
    if powerLimit < written then
      if negative || scaled.significand = 0 then some (.ofMagnitude false 0) else none
    else
      let power := if negative then scaled.power - written else scaled.power + written
      Scaled.magnitude? ⟨scaled.significand, clampPower power⟩

/-- The written number as a binary64 with its sign. -/
def float? (literal : Literal) : Option Number := do
  let magnitude ← literal.magnitude?
  ofBinary64? (if literal.negative then magnitude.neg else magnitude)

/-- The number that is written. Digits alone are an integer if a form without a point holds it; the
negative zero and all larger integers are binary64. -/
def number? (literal : Literal) : Option Number :=
  match literal.fraction, literal.exponent with
  | none, none =>
    let value := natural literal.whole
    if literal.negative then
      if value = 0 then literal.float? else (ofInt? (-value)).or literal.float?
    else (ofInt? value).or literal.float?
  | _, _ => literal.float?

end Literal

/-- The number that a whole text denotes, with no blanks around it. -/
def read? (text : List Char) : Option Number := (Literal.read? text).bind Literal.number?

end Number

end LedgerIntake.Json
