import LedgerIntake.Bytes
import LedgerIntake.Json.Number

/-!
# Lexemes

JSON text is cut into lexemes byte by byte. A string is kept as the bytes between its quotes, of
which only the escapes are examined, and a number as what is written of it, so that a reader who
passes over a value need not be able to represent it.
-/

namespace LedgerIntake.Json

/-- A piece of JSON text, blanks left out. -/
inductive Lexeme where
  | openArray
  | closeArray
  | openObject
  | closeObject
  | comma
  | colon
  | null
  | bool (value : Bool)
  | number (literal : Number.Literal)
  | text (raw : Bytes)

namespace Lexeme

/-- The four blanks of the format: space, tab, line feed and carriage return. -/
def isBlank (byte : UInt8) : Bool := byte = 32 || byte = 9 || byte = 10 || byte = 13

/-- Whether a byte is an ASCII hexadecimal digit. -/
def isHex (byte : UInt8) : Bool := (Bytes.hexValue? (Char.ofNat byte.toNat)).isSome

/-- Whether a byte is the letter of an escape of two characters: a quote, a backslash, a slash, or
one of b, f, n, r and t. -/
def isEscape (byte : UInt8) : Bool :=
  byte = 34 || byte = 92 || byte = 47 || byte = 98 || byte = 102 || byte = 110 || byte = 114
    || byte = 116

/-- The bytes up to the closing quote, and what follows it. Control characters and unknown escapes
are refused. Bytes passed so far stand in reverse. -/
def scanText (passed : Bytes) : Bytes → Option (Bytes × Bytes)
  | [] => none
  | byte :: rest =>
    if byte = 34 then some (passed.reverse, rest)
    else if byte = 92 then
      match rest with
      | [] => none
      | letter :: rest =>
        if letter = 117 then
          match rest with
          | a :: b :: c :: d :: rest =>
            if isHex a && isHex b && isHex c && isHex d then
              scanText (d :: c :: b :: a :: letter :: byte :: passed) rest
            else none
          | _ => none
        else if isEscape letter then scanText (letter :: byte :: passed) rest
        else none
    else if byte < 32 then none
    else scanText (byte :: passed) rest

/-- The mark that ends a string is consumed, so less is left behind it. -/
theorem length_of_scanText {passed source : Bytes} {result : Bytes × Bytes}
    (scanned : scanText passed source = some result) : result.2.length < source.length := by
  fun_induction scanText passed source <;> simp_all <;> grind

/-- What follows a word at the front of a text. -/
def scanWord : (word source : Bytes) → Option Bytes
  | [], source => some source
  | letter :: word, byte :: source => if letter = byte then scanWord word source else none
  | _ :: _, [] => none

/-- Removing a word from the front leaves no more than before, so scanning goes forward. -/
theorem length_of_scanWord {word source rest : Bytes} (scanned : scanWord word source = some rest) :
    rest.length ≤ source.length := by
  fun_induction scanWord word source <;> grind

/-- The bytes of which numbers are made: digits, signs, the point, and the marks of an exponent. -/
def isNumeric (byte : UInt8) : Bool :=
  (48 ≤ byte && byte ≤ 57) || byte = 43 || byte = 45 || byte = 46 || byte = 69 || byte = 101

/-- The number that begins a text, which ends with the last byte of which numbers are made. -/
def scanNumber (source : Bytes) : Option (Lexeme × Bytes) :=
  let written := source.takeWhile isNumeric
  if written.isEmpty then none
  else
    (Number.Literal.read? (written.map fun byte => Char.ofNat byte.toNat)).map fun literal =>
      (.number literal, source.dropWhile isNumeric)

/-- A number has a byte at least, so less is left behind it. Scanning
a text ends for this reason. -/
theorem length_of_scanNumber {source : Bytes} {result : Lexeme × Bytes}
    (scanned : scanNumber source = some result) : result.2.length < source.length := by
  have whole :=
    congrArg List.length (List.takeWhile_append_dropWhile (p := isNumeric) (l := source))
  simp only [List.length_append] at whole
  unfold scanNumber at scanned
  dsimp only at scanned
  split at scanned
  · contradiction
  · next present =>
    obtain ⟨literal, _, same⟩ := Option.map_eq_some_iff.mp scanned
    subst same
    have nonempty : 0 < (source.takeWhile isNumeric).length := by
      cases found : source.takeWhile isNumeric with
      | nil => simp [found] at present
      | cons _ _ => simp
    show (source.dropWhile isNumeric).length < source.length
    omega

/-- The lexeme that begins a text without a blank in front, and what follows it. -/
def next? : Bytes → Option (Lexeme × Bytes)
  | [] => none
  | byte :: rest =>
    if byte = 91 then some (.openArray, rest)
    else if byte = 93 then some (.closeArray, rest)
    else if byte = 123 then some (.openObject, rest)
    else if byte = 125 then some (.closeObject, rest)
    else if byte = 44 then some (.comma, rest)
    else if byte = 58 then some (.colon, rest)
    else if byte = 34 then (scanText [] rest).map fun (raw, rest) => (.text raw, rest)
    else if byte = 110 then (scanWord [117, 108, 108] rest).map fun rest => (.null, rest)
    else if byte = 116 then (scanWord [114, 117, 101] rest).map fun rest => (.bool true, rest)
    else if byte = 102 then
      (scanWord [97, 108, 115, 101] rest).map fun rest => (.bool false, rest)
    else scanNumber (byte :: rest)

/-- A lexeme is never empty, so that splitting a text into lexemes comes to an end. -/
theorem length_of_next {source : Bytes} {result : Lexeme × Bytes}
    (scanned : next? source = some result) : result.2.length < source.length := by
  unfold next? at scanned
  split at scanned
  · contradiction
  · next byte rest =>
    repeat' split at scanned
    all_goals first
      | exact length_of_scanNumber scanned
      | (simp only [Option.some.injEq] at scanned; subst scanned; simp)
      | (obtain ⟨inner, found, same⟩ := Option.map_eq_some_iff.mp scanned
         subst same
         first
           | (have shorter := length_of_scanWord found; simp only [List.length_cons]; omega)
           | (have shorter := length_of_scanText found; simp only [List.length_cons]; omega))

/-- The lexemes of a text, after those already cut off, which stand in reverse. -/
def scanFrom (cut : List Lexeme) (source : Bytes) : Option (List Lexeme) :=
  match source with
  | [] => some cut.reverse
  | byte :: rest =>
    if isBlank byte then scanFrom cut rest
    else
      match _scanned : next? (byte :: rest) with
      | none => none
      | some (lexeme, after) => scanFrom (lexeme :: cut) after
termination_by source.length
decreasing_by
  · simp
  · exact length_of_next _scanned

/-- The lexemes of a text. -/
def scan (source : Bytes) : Option (List Lexeme) := scanFrom [] source

end Lexeme

end LedgerIntake.Json
