import LedgerIntake.Text.Utf8
import LedgerIntake.Json.Source
import LedgerIntake.Json.Value

/-!
# Reading JSON

A written value is evaluated by resolving the escapes of its strings, computing its numbers and
ordering the members of its objects; of a key that stands twice the last value counts. A string with
a lone surrogate or bytes that are not UTF-8, a number that no binary64 holds, and arrays and
objects nested more than 127 deep have no value.
-/

namespace LedgerIntake.Json

/-- The value of four hexadecimal digits. -/
def unit? (a b c d : Char) : Option Nat := do
  let a ← Bytes.hexValue? a
  let b ← Bytes.hexValue? b
  let c ← Bytes.hexValue? c
  let d ← Bytes.hexValue? d
  return ((a * 16 + b) * 16 + c) * 16 + d

/-- The character of an escape of two characters. -/
def shortEscape? (letter : Char) : Option Char :=
  if letter = '"' || letter = '\\' || letter = '/' then some letter
  else if letter = 'b' then some (Char.ofNat 8)
  else if letter = 'f' then some (Char.ofNat 12)
  else if letter = 'n' then some '\n'
  else if letter = 'r' then some '\r'
  else if letter = 't' then some '\t'
  else none

/-- The scalar value of a pair of surrogates. -/
def joinSurrogates (high low : Nat) : Char :=
  Char.ofNat (0x10000 + (high - 0xd800) * 0x400 + (low - 0xdc00))

/-- The characters that escapes stand for. A surrogate has to be one of a pair, high before low.
Characters resolved so far stand in reverse. -/
def unescape (resolved : List Char) : List Char → Option (List Char)
  | [] => some resolved.reverse
  | '\\' :: 'u' :: a :: b :: c :: d :: rest =>
    match unit? a b c d with
    | none => none
    | some unit =>
      if unit < 0xd800 || 0xe000 ≤ unit then unescape (Char.ofNat unit :: resolved) rest
      else if 0xdc00 ≤ unit then none
      else
        match rest with
        | '\\' :: 'u' :: e :: f :: g :: h :: rest =>
          match unit? e f g h with
          | none => none
          | some low =>
            if 0xdc00 ≤ low && low < 0xe000 then
              unescape (joinSurrogates unit low :: resolved) rest
            else none
        | _ => none
  | '\\' :: letter :: rest =>
    match shortEscape? letter with
    | none => none
    | some char => unescape (char :: resolved) rest
  | char :: rest => unescape (char :: resolved) rest

/-- The text that the bytes between two quotes spell. -/
def resolveText? (raw : Bytes) : Option String := do
  let escaped ← Utf8.decode? raw
  let chars ← unescape [] escaped.toList
  return String.ofList chars

/-- How many arrays and objects may stand inside one another. -/
def greatestDepth : Nat := 127

mutual

/-- The value of what is written, if arrays and objects nest at most `depth` deep. -/
def Source.value? (depth : Nat) : Source → Option Value
  | .null => some .null
  | .bool value => some (.bool value)
  | .number literal => literal.number?.map .number
  | .text raw => (resolveText? raw).map .text
  | .array items =>
    match depth with
    | 0 => none
    | depth + 1 => (itemValues? depth [] items).map .array
  | .object members =>
    match depth with
    | 0 => none
    | depth + 1 => (memberValues? depth [] members).map .object

/-- The values of items; those evaluated so far stand in reverse. -/
def itemValues? (depth : Nat) (evaluated : List Value) : List Source → Option (List Value)
  | [] => some evaluated.reverse
  | item :: rest =>
    match item.value? depth with
    | none => none
    | some value => itemValues? depth (value :: evaluated) rest

/-- The members of an object, added to those evaluated so far. -/
def memberValues? (depth : Nat) (evaluated : Members) : List (Bytes × Source) → Option Members
  | [] => some evaluated
  | (key, member) :: rest =>
    match resolveText? key, member.value? depth with
    | some key, some value => memberValues? depth (evaluated.insert key value) rest
    | _, _ => none

end

/-- The value of a text in UTF-8; other bytes are no JSON. -/
def readBytes? (bytes : Bytes) : Option Value :=
  (Source.read? bytes).bind (Source.value? greatestDepth)

/-- The value of a text. -/
def read? (source : String) : Option Value := readBytes? (Utf8.encode source)

end LedgerIntake.Json
