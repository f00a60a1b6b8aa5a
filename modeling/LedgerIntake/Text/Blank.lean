/-!
# Blanks

The characters with the property White_Space, and texts without them at either end.
-/

namespace LedgerIntake.Text

/-- The characters that count as blank. -/
def isBlank (char : Char) : Bool :=
  let value := char.toNat
  (9 ≤ value && value ≤ 13) || value = 0x20 || value = 0x85 || value = 0xa0 || value = 0x1680
    || (0x2000 ≤ value && value ≤ 0x200a) || value = 0x2028 || value = 0x2029 || value = 0x202f
    || value = 0x205f || value = 0x3000

/-- A text without the blanks at its ends. -/
def trim (text : List Char) : List Char :=
  (((text.dropWhile isBlank).reverse).dropWhile isBlank).reverse

end LedgerIntake.Text
