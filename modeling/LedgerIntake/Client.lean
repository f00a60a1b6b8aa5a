import LedgerIntake.Batch.Writer
import LedgerIntake.Connection

/-!
# Clients

A client sends one message and waits for its reply before it sends the next. What it reads is the
frame that the server wrote, under a limit of its own, so a reply that is too long for the client is
an error although the server gave it.
-/

namespace LedgerIntake

/-- Why a client did not get what it asked for. -/
inductive ClientError where
  | framing (fault : FrameError)
  | codec (cause : Batch.BatchError)
  /-- The server did not take the token. -/
  | authRejected (reason : String)
  /-- A reply to a batch that is no acknowledgment. -/
  | unreadableResponse (reply : Bytes)
  /-- A reply to a token that cannot be read. -/
  | unreadableAuthReply (reply : Bytes)
  /-- The server left without a reply. -/
  | closed
  /-- There is no connection, for a reason that the system gives. -/
  | unreachable (reason : String)
deriving DecidableEq

namespace ClientError

/-- The wording of an error. -/
def message [Diagnostics] : ClientError → String
  | .framing fault => "framing error: " ++ fault.message
  | .codec cause => "codec error: " ++ cause.message
  | .authRejected reason => "authentication rejected: " ++ reason
  | .unreadableResponse reply =>
    "protocol error: unreadable response: " ++ Diagnostics.ofReply reply
  | .unreadableAuthReply reply =>
    "protocol error: unreadable auth reply: " ++ Diagnostics.ofAuthReply reply
  | .closed => "connection closed by peer"
  | .unreachable reason => "I/O error: " ++ reason

end ClientError

/-- One connection as seen from both of its ends. -/
structure Link where
  server : Server
  phase : Phase
  intake : Intake

namespace Client

/-- The greatest length of a reply. -/
def responseLimit : Nat := 52428800

/-- Reads the reply that a server gave; one that has no frame never leaves the server. -/
def receive (reply : Bytes) : Except ClientError Bytes :=
  match Frame.encode reply with
  | .error _ => .error .closed
  | .ok frame =>
    match (Inflow.ofBytes frame).readFrame responseLimit with
    | (.ok (some payload), _) => .ok payload
    | (.ok none, _) => .error .closed
    | (.error fault, _) => .error (.framing fault)

/-- Reads a reply to a batch. -/
def readAcknowledgment (reply : Bytes) : Except ClientError Acknowledgment :=
  match Acknowledgment.ofPayload? reply with
  | some acknowledgment => .ok acknowledgment
  | none => .error (.unreadableResponse reply)

/-- Reads a reply to a token. -/
def readAuthReply (reply : Bytes) : Except ClientError Unit :=
  match AuthReply.ofPayload? reply with
  | none => .error (.unreadableAuthReply reply)
  | some ⟨true, _⟩ => .ok ()
  | some ⟨false, reason⟩ => .error (.authRejected (reason.getD "no reason given"))

end Client

namespace Link

/-- A new connection. -/
def dial (server : Server) (intake : Intake) : Link := ⟨server, server.opening, intake⟩

/-- Sends a message and reads its reply. -/
def exchange [Diagnostics] (link : Link) (message : Bytes) (elapsed : Elapsed) :
    Except ClientError Bytes × Link :=
  match Frame.encode message with
  | .error fault => (.error (.framing fault), link)
  | .ok _ =>
    if link.phase = .closed then (.error .closed, link)
    else
      let turn := link.server.answer link.phase message link.intake elapsed
      (Client.receive turn.reply, { link with phase := turn.phase, intake := turn.intake })

/-- Offers a token. -/
def authenticate [Diagnostics] (link : Link) (token : String) (elapsed : Elapsed) :
    Except ClientError Unit × Link :=
  let (reply, link) := link.exchange (AuthRequest.ofToken token).payload elapsed
  (reply.bind Client.readAuthReply, link)

/-- Submits a payload as it is. -/
def submitPayload [Diagnostics] (link : Link) (payload : Bytes) (elapsed : Elapsed) :
    Except ClientError Acknowledgment × Link :=
  let (reply, link) := link.exchange payload elapsed
  (reply.bind Client.readAcknowledgment, link)

/-- Submits rows as one batch. -/
def submitRows [Diagnostics] (link : Link) (rows : List Batch.Row) (elapsed : Elapsed) :
    Except ClientError Acknowledgment × Link :=
  match Batch.encode rows with
  | .error cause => (.error (.codec cause), link)
  | .ok payload => link.submitPayload payload elapsed

end Link

end LedgerIntake
