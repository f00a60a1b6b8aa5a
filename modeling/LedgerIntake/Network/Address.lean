import LedgerIntake.Bytes

/-!
# Addresses

Addresses of machines, and the texts in which they are written. The older form of 32 bits is written
as numbers between dots, of which all but the last stand for a byte and the last for the bytes that
are left, so that one address has many texts. The newer form of 128 bits is written as groups of
hexadecimal digits between colons, where two colons stand for as many groups of zeros as are
missing.
-/

namespace LedgerIntake

/-- An address of a machine. -/
inductive Address where
  /-- The older form. -/
  | v4 (bits : BitVec 32)
  /-- The newer form, and the number of the link on which it is meant; zero names no link. -/
  | v6 (bits : BitVec 128) (link : Nat)
deriving DecidableEq

namespace Address

/-- The number that digits of a base write. There is at least one digit. -/
def number? (base : Nat) (digits : List Char) : Option Nat :=
  if digits.isEmpty then none
  else digits.foldlM (fun value digit =>
    match Bytes.hexValue? digit with
    | some digit => if digit < base then some (value * base + digit) else none
    | none => none) 0

/-- The number between two dots: hexadecimal after `0x`, octal after
another zero, and decimal else. -/
def part? : List Char → Option Nat
  | '0' :: 'x' :: digits => number? 16 digits
  | '0' :: 'X' :: digits => number? 16 digits
  | '0' :: digits => number? 8 ('0' :: digits)
  | digits => number? 10 digits

/-- The value of a number of bytes of which all but the last given number fill
one, and the last the rest. -/
def fill? : (bytes : Nat) → List Nat → Option Nat
  | bytes + 1, [last] => if last < 1 <<< (8 * (bytes + 1)) then some last else none
  | bytes + 1, first :: rest =>
    if first < 256 then (fill? bytes rest).map (first <<< (8 * bytes) + ·) else none
  | _, _ => none

/-- Reads an address of the older form. -/
def ofParts? (text : List Char) : Option Address := do
  let value ← fill? 4 (← (text.splitOn '.').mapM part?)
  return .v4 (.ofNat 32 value)

/-- The byte that decimal digits write without zeros in front. -/
def octet? (digits : List Char) : Option Nat :=
  if digits.head? = some '0' ∧ 1 < digits.length then none
  else (number? 10 digits).filter (· < 256)

/-- The two groups for which four bytes between dots may stand. -/
def pair? (text : List Char) : Option (List Nat) := do
  match ← (text.splitOn '.').mapM octet? with
  | [a, b, c, d] => some [a <<< 8 + b, c <<< 8 + d]
  | _ => none

/-- The group that hexadecimal digits write. -/
def group? (digits : List Char) : Option Nat :=
  if digits.length ≤ 4 then number? 16 digits else none

/-- The groups that texts between colons write; the last text may hold four bytes between dots. -/
def groups? : List (List Char) → Option (List Nat)
  | [] => some []
  | [last] => if last.contains '.' then pair? last else (group? last).map ([·])
  | text :: rest => do return (← group? text) :: (← groups? rest)

/-- The texts in front of two colons and behind them, if there are two. -/
def splitAtGap : List Char → List Char × Option (List Char)
  | [] => ([], none)
  | ':' :: ':' :: behind => ([], some behind)
  | char :: rest => let (front, behind) := splitAtGap rest; (char :: front, behind)

/-- The texts between colons; an empty text holds none. -/
def betweenColons (text : List Char) : List (List Char) :=
  if text.isEmpty then [] else text.splitOn ':'

/-- The eight groups of an address of the newer form. -/
def eightGroups? (text : List Char) : Option (List Nat) :=
  match splitAtGap text with
  | (whole, none) => (groups? (betweenColons whole)).filter (·.length = 8)
  | (front, some behind) => do
    let front ← (betweenColons front).mapM group?
    let behind ← groups? (betweenColons behind)
    let present := front.length + behind.length
    if present < 8 then some (front ++ List.replicate (8 - present) 0 ++ behind) else none

/-- Reads an address of the newer form, behind which the number of a link may
stand after a percent sign. -/
def ofGroups? (text : List Char) : Option Address := do
  let (groups, link) ← match text.splitOn '%' with
    | [groups] => some (groups, 0)
    | [groups, link] => ((number? 10 link).filter (· < UInt32.size)).map fun link => (groups, link)
    | _ => none
  let value := (← eightGroups? groups).foldl (fun value group => value <<< 16 + group) 0
  return .v6 (.ofNat 128 value) link

/-- The machine itself. -/
def loopback : Address := .v4 0x7f000001

/-- Whether all machines of a group have an address of the newer form. -/
def isMulticast (bits : BitVec 128) : Bool := bits >>> 120 = 0xff

/-- Whether an address of the newer form holds on one link only. -/
def isLinkLocal (bits : BitVec 128) : Bool := bits >>> 118 = 0x3fa

/-- The address of the older form for which one of the newer form stands. -/
def mapped? (bits : BitVec 128) : Option (BitVec 32) :=
  if bits >>> 32 = 0xffff then some (bits.truncate 32) else none

/-- Whether an address of the older form is that of the machine itself, or
stands for all that it has. -/
def isOwn (bits : BitVec 32) : Bool := bits = 0 || bits >>> 24 = 0x7f

/-- Whether an address is that of the machine itself, or stands for all that it has. -/
def isLocal : Address → Bool
  | .v4 bits => isOwn bits
  | .v6 bits _ => bits = 0 || bits = 1 || (mapped? bits).any isOwn

end Address

end LedgerIntake
