import LedgerIntake.Text.Unprintable

/-!
# Quoted text

How messages show a text that someone else wrote: in double quotes, with escapes for the quote, the
backslash and line ends, and with the number in braces of every character that has no printed form.
-/

namespace LedgerIntake.Text

/-- A character as it stands between quotes. -/
def quoteChar (char : Char) : String :=
  if char.toNat = 0 then "\\0"
  else if char = '\t' then "\\t"
  else if char = '\r' then "\\r"
  else if char = '\n' then "\\n"
  else if char = '\\' then "\\\\"
  else if char = '"' then "\\\""
  else if isUnprintable char then
    "\\u\x7b" ++ String.ofList (Nat.toDigits 16 char.toNat) ++ "\x7d"
  else char.toString

/-- A text between quotes. -/
def quote (text : String) : String := "\"" ++ String.join (text.toList.map quoteChar) ++ "\""

end LedgerIntake.Text
