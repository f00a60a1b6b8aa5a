import LedgerIntake.Network.Endpoint
import LedgerIntake.SystemFault

/-!
# Networks

What a machine allows servers and clients: whom it knows by name, where it lets a server listen, and
where it can connect to. Two machines are described, one that reaches itself and nothing else, and
one that does not even reach itself.
-/

namespace LedgerIntake

/-- What a network allows. -/
structure Network where
  /-- The address of a name. -/
  lookup : String → Except LookupFault Address
  /-- Why no server can listen at an address under a number, if none can. -/
  listenFault? : Address → Nat → Option SystemFault
  /-- Why no connection can be made to an address under a number, if none can. -/
  connectFault? : Address → Nat → Option SystemFault

namespace Network

/-- The one name that a machine knows without asking is its own. -/
def ownName (name : String) : Except LookupFault Address :=
  if name.toLower = "localhost" then .ok .loopback else .error .unanswered

/-- Whether only privileged servers may listen under a number. Zero
leaves the choice to the machine. -/
def isPrivileged (number : Nat) : Bool := number ≠ 0 && number < 1024

/-- A machine that reaches itself. -/
def loopback : Network where
  lookup := ownName
  listenFault? address number :=
    if isPrivileged number then some .permissionDenied
    else if address.isLocal then none
    else some .foreignAddress
  connectFault? address _ := if address.isLocal then none else some .networkUnreachable

/-- Why a server cannot listen at an address of the newer form that no link has: a link would have
to be named for an address that holds on one only, and of links there is one, which has number 1. -/
def unlinkedFault (bits : BitVec 128) (link : Nat) : SystemFault :=
  if !Address.isLinkLocal bits then .foreignAddress
  else if link = 0 then .invalidArgument
  else if link = 1 then .foreignAddress
  else .noDevice

/-- A machine of which no link is up. It has no addresses of the newer form; of those of the older
form it does not know which are its own, so that a server can listen at all of them. -/
def isolated : Network where
  lookup := ownName
  listenFault?
    | .v4 _, number => if isPrivileged number then some .permissionDenied else none
    | .v6 bits link, number =>
      if Address.isMulticast bits then some .invalidArgument
      else if isPrivileged number then some .permissionDenied
      else if bits = 0 ∨ (Address.mapped? bits).isSome then none
      else some (unlinkedFault bits link)
  connectFault?
    | .v4 _, _ => some .networkUnreachable
    | .v6 bits link, _ =>
      if Address.isMulticast bits ∨ (Address.mapped? bits).isSome then some .networkUnreachable
      else if Address.isLinkLocal bits ∧ link = 0 then some .invalidArgument
      else some .foreignAddress

/-- The address and the number to which a text leads. -/
def locate (network : Network) (text : String) : Except EndpointFault (Address × Nat) := do
  let endpoint ← Endpoint.parse text
  match endpoint.host with
  | .addressed address => return (address, endpoint.number)
  | .named name => return (← (network.lookup name).mapError .host, endpoint.number)

/-- Why a server cannot listen at an endpoint, if it cannot. -/
def refusal? (network : Network) (text : String) : Option String :=
  match network.locate text with
  | .error fault => some fault.message
  | .ok (address, number) => (network.listenFault? address number).map SystemFault.text

/-- Why no connection can be made to an endpoint, if none can. -/
def obstacle? (network : Network) (text : String) : Option String :=
  match network.locate text with
  | .error fault => some fault.message
  | .ok (address, number) => (network.connectFault? address number).map SystemFault.text

end Network

end LedgerIntake
