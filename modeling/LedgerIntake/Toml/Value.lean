import LedgerIntake.Toml.Quoted

/-!
# TOML values

The values that settings have: strings and integers of 64 bits. An integer is decimal with a sign or
none, or hexadecimal, octal or binary without one. Fractions, dates, arrays and tables are no such
values.
-/

namespace LedgerIntake.Toml

/-- A value that a key can have. -/
inductive Scalar where
  | text (value : String)
  | integer (value : Int)
deriving DecidableEq

/-- The characters of values without quotes. -/
def isWord (char : Char) : Bool := isPlain char && !isBlank char && char ≠ '#'

/-- The number that digits of a base denote. Single underscores may stand between digits. -/
def digits? (base value : Nat) (afterDigit : Bool) : List Char → Option Nat
  | [] => if afterDigit then some value else none
  | '_' :: rest => if afterDigit then digits? base value false rest else none
  | char :: rest =>
    match Bytes.hexValue? char with
    | some digit => if digit < base then digits? base (value * base + digit) true rest else none
    | none => none

/-- A decimal number without zeros in front. -/
def decimal? (text : List Char) : Option Nat :=
  if text.head? = some '0' ∧ 1 < text.length then none else digits? 10 0 false text

/-- An integer of 64 bits: decimal with a sign or none, or without a sign in another base. -/
def integer? (text : List Char) : Option Int := do
  let value : Int ← match text with
    | '0' :: 'x' :: rest => (digits? 16 0 false rest).map Int.ofNat
    | '0' :: 'o' :: rest => (digits? 8 0 false rest).map Int.ofNat
    | '0' :: 'b' :: rest => (digits? 2 0 false rest).map Int.ofNat
    | '+' :: rest => (decimal? rest).map Int.ofNat
    | '-' :: rest => (decimal? rest).map fun value => -Int.ofNat value
    | text => (decimal? text).map Int.ofNat
  if -0x8000000000000000 ≤ value ∧ value < 0x8000000000000000 then some value else none

/-- A value that was read as characters. -/
def textValue (scanned : List Char × List Char) : Scalar × List Char :=
  (.text (String.ofList scanned.1), scanned.2)

/-- Reads a value. -/
def value? : List Char → Option (Scalar × List Char)
  | '"' :: '"' :: '"' :: rest => (scanBasicLines false [] (skipLineEnd rest)).map textValue
  | '"' :: rest => (scanBasic [] rest).map textValue
  | '\'' :: '\'' :: '\'' :: rest => (scanLiteralLines [] (skipLineEnd rest)).map textValue
  | '\'' :: rest => (scanLiteral [] rest).map textValue
  | text =>
    (integer? (text.takeWhile isWord)).map fun value => (.integer value, text.dropWhile isWord)

/-- What follows a value is no longer than the value and what follows it. -/
theorem length_of_value {text : List Char} {result : Scalar × List Char}
    (found : value? text = some result) : result.2.length ≤ text.length := by
  unfold value? at found
  split at found
  all_goals obtain ⟨inner, scanned, same⟩ := Option.map_eq_some_iff.mp found
  all_goals subst same
  · next rest =>
    have shorter := length_of_scanBasicLines scanned
    have lineEnd := length_skipLineEnd rest
    simp only [textValue, List.length_cons]
    omega
  · have shorter := length_of_scanBasic scanned
    simp only [textValue, List.length_cons]
    omega
  · next rest =>
    have shorter := length_of_scanLiteralLines scanned
    have lineEnd := length_skipLineEnd rest
    simp only [textValue, List.length_cons]
    omega
  · have shorter := length_of_scanLiteral scanned
    simp only [textValue, List.length_cons]
    omega
  · exact length_dropWhile_le isWord text

end LedgerIntake.Toml
