import LedgerIntake.Session
import LedgerIntake.Tcp.Peer
import Std.Async.Signal

/-!
# Serving over TCP

Every connection is attended by a task of its own, and all of them share one intake, which changes
in one step for each message. An interrupt stops the server: no more connections are taken, idle
ones are let go, and a message that has begun to come is still read and answered.
-/

namespace LedgerIntake.Tcp

open Std.Async Std.Net

/-- What the connections of a running server share. -/
structure Hub where
  settings : Settings
  intake : IO.Ref Intake
  stop : Std.CancellationToken
  /-- The number of connections that are attended. -/
  attended : IO.Ref Nat

namespace Hub

/-- The seconds that a peer has for a message. -/
def readTime (hub : Hub) : Phase → Nat
  | .authenticating => 10
  | _ => hub.settings.readTimeout

/-- The seconds that a peer has for a reply. -/
def writeTime (hub : Hub) : Phase → Nat
  | .authenticating => 5
  | _ => hub.settings.writeTimeout

/-- What interrupts the wait for a message; a handshake is not interrupted. -/
def interrupt (hub : Hub) : Phase → Option Std.CancellationToken
  | .authenticating => none
  | _ => some hub.stop

/-- Takes a turn on the shared intake. Nothing that is served shows how long turns take. -/
def turn (hub : Hub) (take : Intake → Turn) : BaseIO Turn :=
  hub.intake.modifyGet fun intake => let turn := take intake; (turn, turn.intake)

/-- Writes a reply, and tells whether it was taken in time. -/
def reply (hub : Hub) (socket : TCP.Socket.Client) (phase : Phase) (payload : Bytes) :
    Async Bool := do
  match Frame.encode payload with
  | .error _ => return false
  | .ok frame =>
    let deadline ← Sleep.mk (.ofNat (hub.writeTime phase * 1000))
    let taken ← Async.race
      (do return (← deliver socket frame).toOption.isSome)
      (do deadline.wait; return false)
    deadline.stop
    return taken

/-- The turn that a message leads to, or nothing if it does not come. -/
def receive [Diagnostics] (hub : Hub) (socket : TCP.Socket.Client) (phase : Phase) :
    Async (Option Turn) := do
  let server := hub.settings.server
  let patience ← Patience.ofSeconds (hub.readTime phase) (hub.interrupt phase)
  let header ← gather patience socket Inflow.lengthSize
  patience.release
  let some header := header | return none
  let (.ok (some size), _) := header.readLength | return none
  if server.limitIn phase < size then return some (← hub.turn (server.refuse phase size))
  let patience ← Patience.ofSeconds (hub.readTime phase) none
  let body ← gather patience socket size
  patience.release
  let some body := body | return none
  let (.ok message, _) := body.readPayload size (server.limitIn phase) | return none
  return some (← hub.turn fun intake => server.accept phase message intake ⟨0, 0⟩)

/-- Receives messages and replies to them until the connection is closed. -/
partial def converse [Diagnostics] (hub : Hub) (socket : TCP.Socket.Client) (phase : Phase) :
    Async Unit := do
  if phase = .closed then return
  let some turn ← hub.receive socket phase | return
  if ← hub.reply socket phase turn.reply then hub.converse socket turn.phase

/-- Attends a connection from its beginning to its end. -/
def attend [Diagnostics] (hub : Hub) (socket : TCP.Socket.Client) : Async Unit := do
  try
    hub.converse socket hub.settings.server.opening
    socket.shutdown
  catch _ => return
  finally hub.attended.modify (· - 1)

/-- Takes connections until the sign to stop. -/
partial def welcome [Diagnostics] (hub : Hub) (listener : TCP.Socket.Server) : Async Unit := do
  let came ← Selectable.one
    #[Selectable.case listener.acceptSelector fun socket => pure (some socket),
      Selectable.case hub.stop.selector fun _ => pure none]
  if let some socket := came then
    hub.attended.modify (· + 1)
    background (hub.attend socket)
    hub.welcome listener

/-- Waits until no connection is attended. -/
partial def drain (hub : Hub) : Async Unit := do
  if (← hub.attended.get) ≠ 0 then
    Std.Async.sleep 10
    hub.drain

end Hub

/-- Listens at the first of some addresses that can be taken. -/
def listenAt : List SocketAddress → Async (Except String TCP.Socket.Server)
  | [] => return .error "could not resolve to any address"
  | address :: others => do
    try
      let listener ← TCP.Socket.Server.mk
      listener.bind address
      listener.listen 1024
      return .ok listener
    catch error =>
      match others with
      | [] => return .error (reason error)
      | _ => listenAt others

/-- Gives the sign to stop when an interrupt comes. -/
def stopOnInterrupt (stop : Std.CancellationToken) : Async Unit := do
  let waiter ← Signal.Waiter.mk .sigint false
  background do
    let _ ← Selectable.one #[Selectable.case waiter.selector fun _ => pure ()]
    stop.cancel

/-- Serves under settings until an interrupt comes. -/
def serve [Diagnostics] (settings : Settings) : Async Command.Outcome := do
  match Intake.create settings.poolCapacity, Endpoint.parse settings.listen with
  | .error _, _ => return .fail (.settings (.invalid .capacity))
  | _, .error fault => return .fail (.unbound settings.listen fault.message)
  | .ok intake, .ok endpoint =>
    let bound ←
      match ← resolve endpoint with
      | .error reason => pure (.error reason)
      | .ok addresses => listenAt addresses
    match bound with
    | .error reason => return .fail (.unbound settings.listen reason)
    | .ok listener =>
      let hub : Hub :=
        ⟨settings, ← IO.mkRef intake, ← Std.CancellationToken.new, ← IO.mkRef 0⟩
      stopOnInterrupt hub.stop
      hub.welcome listener
      hub.drain
      return .success ""

end LedgerIntake.Tcp
