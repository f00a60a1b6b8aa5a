import LedgerIntake.Network.Host

/-!
# Endpoints

Where a server listens and clients connect: a host, and behind the last colon of a text the number
under which the host keeps servers apart. The colons of an address would be taken for that one where
it stands alone, so it may stand in brackets.
-/

namespace LedgerIntake

/-- A host and a number. -/
structure Endpoint where
  host : Host
  number : Nat
deriving DecidableEq

/-- Why a text leads to no endpoint. -/
inductive EndpointFault where
  /-- There is no colon. -/
  | address
  /-- What follows the last colon is no number of 16 bits. -/
  | number
  /-- The host is not found. -/
  | host (fault : LookupFault)
deriving DecidableEq

/-- The wording of a fault. -/
def EndpointFault.message : EndpointFault → String
  | .address => "invalid socket address"
  | .number => "invalid port value"
  | .host fault => fault.message

/-- The natural number that a text writes in ASCII digits, with a plus sign in front or none. -/
def writtenNatural? (text : String) : Option Nat :=
  let digits := match text.toList with
    | '+' :: rest => rest
    | text => text
  if digits.isEmpty || !digits.all Char.isDigit then none
  else some (digits.foldl (fun value digit => value * 10 + (digit.toNat - 48)) 0)

namespace Endpoint

/-- The address that a text holds in brackets. -/
def bracketed? : List Char → Option Address
  | '[' :: rest => if rest.getLast? = some ']' then Address.ofGroups? rest.dropLast else none
  | _ => none

/-- Reads an endpoint. Behind brackets the number has no sign. -/
def parse (text : String) : Except EndpointFault Endpoint :=
  let reversed := text.toList.reverse
  let written := (reversed.takeWhile (· ≠ ':')).reverse
  match reversed.dropWhile (· ≠ ':') with
  | [] => .error .address
  | _ :: reversed =>
    match (writtenNatural? (String.ofList written)).filter (· < UInt16.size) with
    | none => .error .number
    | some number =>
      let host := reversed.reverse
      match if written.head? = some '+' then none else bracketed? host with
      | some address => .ok ⟨.addressed address, number⟩
      | none => ((Host.parse (String.ofList host)).map (⟨·, number⟩)).mapError .host

end Endpoint

end LedgerIntake
