import LedgerIntake.Network.Address

/-!
# Hosts

How texts name machines: by an address, or by a name whose address someone has to be asked for. A
text that can be neither is known to name no machine before anyone is asked.
-/

namespace LedgerIntake

/-- A machine, as a text names it. -/
inductive Host where
  | addressed (address : Address)
  | named (name : String)
deriving DecidableEq

/-- Why the address of a host is not found. -/
inductive LookupFault where
  /-- There is no such host. -/
  | unknown
  /-- Nobody who could know the name answers. -/
  | unanswered
  /-- The text holds the character that ends texts for those who are asked. -/
  | cut
deriving DecidableEq

/-- The wording of a fault. -/
def LookupFault.message : LookupFault → String
  | .unknown => "failed to lookup address information: Name or service not known"
  | .unanswered => "failed to lookup address information: Temporary failure in name resolution"
  | .cut => "file name contained an unexpected NUL byte"

namespace Host

/-- Whether a character can stand in a name. -/
def isNameChar (char : Char) : Bool := char.isAlphanum || char = '-' || char = '_'

/-- Whether characters can stand between the dots of a name. -/
def isLabel (label : List Char) : Bool :=
  !label.isEmpty && label.length ≤ 63 && label.all isNameChar

/-- Whether a text can be a name. A dot may stand at its end, and a lone dot
names the root of all names. -/
def isName (text : List Char) : Bool :=
  let name := if text.getLast? = some '.' then text.dropLast else text
  text = ['.'] || name.head? ≠ some '-' && name.length ≤ 253 && (name.splitOn '.').all isLabel

/-- The host that a text names. -/
def parse (text : String) : Except LookupFault Host :=
  let chars := text.toList
  if chars.contains '\x00' then .error .cut
  else match Address.ofParts? chars <|> Address.ofGroups? chars with
    | some address => .ok (.addressed address)
    | none => if isName chars then .ok (.named text) else .error .unknown

end Host

end LedgerIntake
