import LedgerIntake.Bytes
import LedgerIntake.Json.Value

/-!
# JSON text

A style says how numbers are spelled and which characters of a string are escaped; the brackets,
commas and colons around them are the same for all. Texts without blanks and texts indented by two
spaces are written from the same tree.
-/

namespace LedgerIntake.Json

/-- How numbers and the characters of strings are spelled. -/
structure Style where
  number : Number → String
  char : Char → String

/-- A lowercase escape of four hexadecimal digits for a value below 2¹⁶. -/
def escapeUnit (unit : Nat) : String :=
  "\\u" ++ Bytes.toHex (Bytes.bigEndian 2 unit)

/-- The escapes that every style shares: the quote, the backslash and the control characters, with
the short form where there is one. -/
def escape? (char : Char) : Option String :=
  if char = '"' then some "\\\""
  else if char = '\\' then some "\\\\"
  else if char.toNat = 8 then some "\\b"
  else if char.toNat = 12 then some "\\f"
  else if char = '\n' then some "\\n"
  else if char = '\r' then some "\\r"
  else if char = '\t' then some "\\t"
  else if char.toNat < 0x20 then some (escapeUnit char.toNat)
  else none

/-- The characters that have a short escape, with it. -/
def shortEscapes : List (Char × String) :=
  [('"', "\\\""), ('\\', "\\\\"), (Char.ofNat 8, "\\b"), (Char.ofNat 12, "\\f"),
    ('\n', "\\n"), ('\r', "\\r"),
    ('\t', "\\t")]

/-- A character is escaped in short, or it is a control and is escaped by its number. -/
theorem escape?_eq_some {char : Char} {written : String} (escaped : escape? char = some written) :
    (char, written) ∈ shortEscapes ∨ char.toNat < 0x20 ∧ written = escapeUnit char.toNat := by
  have named (value : Nat) (same : char.toNat = value) : char = Char.ofNat value := by
    rw [← same, Char.ofNat_toNat]
  unfold escape? at escaped
  repeat' split at escaped
  all_goals cases escaped
  · next same => exact .inl (same ▸ by decide)
  · next same => exact .inl (same ▸ by decide)
  · next same => exact .inl (named 8 same ▸ by decide)
  · next same => exact .inl (named 12 same ▸ by decide)
  · next same => exact .inl (same ▸ by decide)
  · next same => exact .inl (same ▸ by decide)
  · next same => exact .inl (same ▸ by decide)
  · next control => exact .inr ⟨control, rfl⟩

/-- Plain text: every character that needs no escape stands for itself. -/
def Style.plain : Style where
  number := Number.text
  char := fun char => (escape? char).getD char.toString

/-- A string in quotes. -/
def Style.quote (style : Style) (text : String) : String :=
  "\"" ++ String.join (text.toList.map style.char) ++ "\""

/-- Written members as an object. -/
def Style.braces (style : Style) (members : List (String × String)) : String :=
  "\x7b" ++ String.intercalate "," (members.map fun (key, value) => style.quote key ++ ":" ++ value)
    ++ "\x7d"

/-- Written items as an array. -/
def brackets (items : List String) : String := "[" ++ String.intercalate "," items ++ "]"

mutual

/-- The text of a value, without blanks. -/
def Value.write (style : Style) : Value → String
  | .null => "null"
  | .bool value => if value then "true" else "false"
  | .number value => style.number value
  | .text value => style.quote value
  | .array items => brackets (writeItems style items)
  | .object members => style.braces (writeMembers style members)

/-- The text of each value. -/
def writeItems (style : Style) : List Value → List String
  | [] => []
  | item :: rest => item.write style :: writeItems style rest

/-- The text of each member's value, beside its key. -/
def writeMembers (style : Style) : List (String × Value) → List (String × String)
  | [] => []
  | (key, value) :: rest => (key, value.write style) :: writeMembers style rest

end

/-- The plain text of a value. -/
def Value.toText (value : Value) : String := value.write .plain

/-- An object whose members stand as given, in plain text. -/
def object (members : List (String × String)) : String := Style.plain.braces members

/-- A string in quotes, in plain text. -/
def quoted (text : String) : String := Style.plain.quote text

/-- Two spaces for each level. -/
def indentation (level : Nat) : String := String.ofList (List.replicate (2 * level) ' ')

/-- Lines inside a pair of brackets, each a level deeper than the brackets; nothing between
brackets that hold nothing. -/
def indentedBlock (opening closing : String) (level : Nat) (entries : List String) : String :=
  if entries.isEmpty then opening ++ closing
  else
    opening ++ "\n"
      ++ String.intercalate ",\n" (entries.map fun entry => indentation (level + 1) ++ entry)
      ++ "\n" ++ indentation level ++ closing

/-- An object whose members stand as given, a line for each, begun at a level of indentation. -/
def indentedObject (level : Nat) (members : List (String × String)) : String :=
  indentedBlock "\x7b" "\x7d" level (members.map fun (key, value) => quoted key ++ ": " ++ value)

mutual

/-- The plain text of a value over several lines, begun at a level of indentation. -/
def Value.writeIndented (level : Nat) : Value → String
  | .array items => indentedBlock "[" "]" level (indentedItems (level + 1) items)
  | .object members => indentedObject level (indentedMembers (level + 1) members)
  | value => value.toText

/-- The indented text of each value. -/
def indentedItems (level : Nat) : List Value → List String
  | [] => []
  | item :: rest => item.writeIndented level :: indentedItems level rest

/-- The indented text of each member's value, beside its key. -/
def indentedMembers (level : Nat) : List (String × Value) → List (String × String)
  | [] => []
  | (key, value) :: rest => (key, value.writeIndented level) :: indentedMembers level rest

end

end LedgerIntake.Json
