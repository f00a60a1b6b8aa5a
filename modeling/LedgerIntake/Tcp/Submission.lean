import LedgerIntake.Command
import LedgerIntake.Tcp.Peer

/-!
# Submitting over TCP

One connection is made, a token is offered on it if there is one, and then one batch is submitted.
-/

namespace LedgerIntake.Tcp

open Std.Async Std.Net

/-- Connects to the first of some addresses that can be reached. -/
def connectTo : List SocketAddress → Async (Except String TCP.Socket.Client)
  | [] => return .error "could not resolve to any address"
  | address :: others => do
    try
      let socket ← TCP.Socket.Client.mk
      socket.connect address
      return .ok socket
    catch error =>
      match others with
      | [] => return .error (reason error)
      | _ => connectTo others

/-- Connects to a server. -/
def dial (address : String) : Async (Except ClientError TCP.Socket.Client) := do
  match Endpoint.parse address with
  | .error fault => return .error (.unreachable fault.message)
  | .ok endpoint =>
    let connected ←
      match ← resolve endpoint with
      | .error reason => pure (.error reason)
      | .ok addresses => connectTo addresses
    return connected.mapError .unreachable

/-- Sends a message and reads its reply. -/
def exchange (socket : TCP.Socket.Client) (message : Bytes) : Async (Except ClientError Bytes) := do
  match Frame.encode message with
  | .error fault => return .error (.framing fault)
  | .ok frame =>
    let .ok () ← deliver socket frame | return .error .closed
    let header ← gather .endless socket Inflow.lengthSize
    match (header.getD (.ofBytes [])).readLength with
    | (.ok none, _) => return .error .closed
    | (.error fault, _) => return .error (.framing fault)
    | (.ok (some size), _) =>
      let body ← gather .endless socket (if Client.responseLimit < size then 0 else size)
      let (payload, _) := (body.getD (.ofBytes [])).readPayload size Client.responseLimit
      return payload.mapError .framing

/-- Offers a token if there is one. -/
def offer (socket : TCP.Socket.Client) : Option String → Async (Except ClientError Unit)
  | none => return .ok ()
  | some token => do
    return (← exchange socket (AuthRequest.ofToken token).payload).bind Client.readAuthReply

/-- Offers a token if there is one, and submits rows after that. -/
def submit (address : String) (token : Option String) (rows : List Batch.Row) :
    Async Command.Outcome := do
  match ← dial address with
  | .error error => return .fail (.unconnected address error)
  | .ok socket =>
    match ← offer socket token, Batch.encode rows with
    | .error error, _ => return Command.submitted (.error error)
    | .ok (), .error cause => return Command.submitted (.error (.codec cause))
    | .ok (), .ok payload =>
      return Command.submitted ((← exchange socket payload).bind Client.readAcknowledgment)

end LedgerIntake.Tcp
