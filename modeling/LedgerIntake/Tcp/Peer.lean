import LedgerIntake.Frame
import LedgerIntake.Network.Endpoint
import LedgerIntake.SystemFault
import Std.Async.DNS
import Std.Async.Select
import Std.Async.TCP
import Std.Async.Timer
import Std.Sync.CancellationToken

/-!
# Peers over TCP

Reading from and writing to a socket. What is read is handed on as an inflow, in which all the bytes
that were asked for have come, or the peer has closed its side before, or the system has reported a
fault; what the bytes mean is not known here.
-/

namespace LedgerIntake.Tcp

open Std.Async Std.Net

/-- The fault that an error of a system call stands for, if the system reported one. -/
def systemFault? : IO.Error → Option SystemFault
  | .alreadyExists _ code wording | .otherError code wording | .resourceBusy code wording
  | .resourceVanished code wording | .unsupportedOperation code wording
  | .hardwareFault code wording | .unsatisfiedConstraints code wording
  | .illegalOperation code wording | .protocolError code wording | .timeExpired code wording
  | .interrupted _ code wording | .noFileOrDirectory _ code wording
  | .invalidArgument _ code wording | .permissionDenied _ code wording
  | .resourceExhausted _ code wording | .inappropriateType _ code wording
  | .noSuchThing _ code wording => some (.ofReport code wording)
  | .unexpectedEof | .userError _ => none

/-- The text of an error of a system call. -/
def reason (error : IO.Error) : String :=
  match systemFault? error with
  | some fault => fault.text
  | none => error.toString

/-- Bytes in the form in which sockets and files take them. -/
def packed (bytes : Bytes) : ByteArray := ⟨bytes.toArray⟩

/-- Bytes that a socket or a file gave. -/
def unpacked (bytes : ByteArray) : Bytes := bytes.data.toList

/-- What reading waits for besides bytes. -/
structure Patience where
  /-- The end of the time that may pass. -/
  deadline : Option Sleep
  /-- A sign to stop. -/
  stop : Option Std.CancellationToken

namespace Patience

/-- Waits for bytes alone. -/
def endless : Patience := ⟨none, none⟩

/-- Waits for a number of seconds. -/
def ofSeconds (seconds : Nat) (stop : Option Std.CancellationToken) : Async Patience := do
  return ⟨some (← Sleep.mk (.ofNat (seconds * 1000))), stop⟩

/-- Gives back what waiting took. -/
def release (patience : Patience) : Async Unit := do
  if let some deadline := patience.deadline then deadline.stop

/-- The next bytes of a socket, none if its peer has closed its side, or
nothing if there is no more time. -/
def receive (patience : Patience) (socket : TCP.Socket.Client) (atMost : Nat) :
    Async (Option (Option ByteArray)) := do
  let bytes := Selectable.case (socket.recvSelector (.ofNat atMost)) fun read => pure (some read)
  let ends := patience.deadline.toArray.map fun deadline =>
    Selectable.case deadline.selector fun _ => pure none
  let stops := patience.stop.toArray.map fun token =>
    Selectable.case token.selector fun _ => pure none
  Selectable.one (#[bytes] ++ ends ++ stops)

end Patience

/-- The greatest number of bytes that are read at once. -/
def readSize : Nat := 65536

/-- Reads until as many bytes have come as are needed. -/
partial def gatherFrom (patience : Patience) (socket : TCP.Socket.Client) (needed : Nat)
    (taken : ByteArray) : Async (Option ByteArray) := do
  if needed ≤ taken.size then return some taken
  match ← patience.receive socket (min (needed - taken.size) readSize) with
  | some (some more) => gatherFrom patience socket needed (taken ++ more)
  | some none => return some taken
  | none => return none

/-- What a peer sent of the bytes that are needed, or nothing if it took too long. -/
def gather (patience : Patience) (socket : TCP.Socket.Client) (needed : Nat) :
    Async (Option Inflow) := do
  try
    let taken ← gatherFrom patience socket needed .empty
    return taken.map fun taken => .ofBytes (unpacked taken)
  catch error => return some ⟨[], .broken (reason error)⟩

/-- Writes bytes. -/
def deliver (socket : TCP.Socket.Client) (bytes : Bytes) : Async (Except FrameError Unit) := do
  try
    socket.send (packed bytes)
    return .ok ()
  catch error => return .error (.broken (reason error))

/-- The socket address of a machine and a number. -/
def socketAddress (number : Nat) : IPAddr → SocketAddress
  | .v4 addr => .v4 ⟨addr, .ofNat number⟩
  | .v6 addr => .v6 ⟨addr, .ofNat number⟩

/-- An address in the form in which sockets take it, which has no place for a link. -/
def machineAddress : Address → IPAddr
  | .v4 bits => .v4 ⟨.ofFn fun index => .ofNat (bits.toNat >>> (8 * (3 - index.val)))⟩
  | .v6 bits _ => .v6 ⟨.ofFn fun index => .ofNat (bits.toNat >>> (16 * (7 - index.val)))⟩

/-- Why a name was not found, if the system tells. -/
def lookupFault? : IO.Error → Option LookupFault
  | .otherError 0xfffff447 _ => some .unanswered
  | .otherError 0xfffff440 _ => some .unknown
  | _ => none

/-- The addresses of an endpoint, or why there are none. -/
def resolve (endpoint : Endpoint) : Async (Except String (List SocketAddress)) := do
  match endpoint.host with
  | .addressed address => return .ok [socketAddress endpoint.number (machineAddress address)]
  | .named name =>
    try
      let found ← DNS.getAddrInfo name endpoint.number.repr
      return .ok (found.toList.map (socketAddress endpoint.number)).eraseDups
    catch error => return .error (((lookupFault? error).map (·.message)).getD (reason error))

end LedgerIntake.Tcp
