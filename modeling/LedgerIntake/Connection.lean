import LedgerIntake.Admission
import LedgerIntake.Authentication
import LedgerIntake.Frame

/-!
# Connections

A connection of a guarded server waits for a token first and serves batches after that; one of an
open server serves batches from the start. Each message has one reply. A message that is too long is
turned down on the sight of its length, and the connection reads nothing more. `Server.serve` is all
that a connection does with the bytes of its peer: which replies it gives and what becomes of the
intake.
-/

namespace LedgerIntake

/-- What all connections of a server go by. -/
structure Server where
  guard : Guard
  /-- The greatest length of a batch. -/
  limit : Nat

/-- How far a connection has come. -/
inductive Phase where
  /-- The token has not been offered. -/
  | authenticating
  | serving
  /-- Nothing more is read. -/
  | closed
deriving DecidableEq

/-- What a message leads to: its reply, the phase after it, and the intake after it. -/
structure Turn where
  reply : Bytes
  phase : Phase
  intake : Intake

/-- What a connection did: its replies, why it ended unless its peer just
left, and the intake after it. -/
structure Served where
  replies : List Bytes
  fault : Option FrameError
  intake : Intake

namespace Server

/-- The greatest length of a request for authentication. -/
def requestLimit : Nat := 4096

/-- The phase in which connections begin. -/
def opening (server : Server) : Phase :=
  if server.guard.isEnabled then .authenticating else .serving

/-- The greatest length of a message. -/
def limitIn (server : Server) : Phase → Nat
  | .authenticating => requestLimit
  | _ => server.limit

/-- Turns down a message that is too long. -/
def refuse (server : Server) (phase : Phase) (size : Nat) (intake : Intake) : Turn :=
  let rejection : Rejection :=
    match phase with
    | .authenticating => ⟨.auth, "expected auth frame, got " ++ size.repr ++ " bytes", []⟩
    | _ => ⟨.framing, (FrameError.tooLarge size server.limit).message, []⟩
  ⟨(Acknowledgment.rejected rejection).payload, .closed, intake.countRejection rejection.kind⟩

/-- Answers the message that has to offer the token. -/
def authenticate (server : Server) (message : Bytes) (intake : Intake) : Turn :=
  let reply := server.guard.handshake message
  if reply.success then ⟨reply.payload, .serving, intake⟩
  else ⟨reply.payload, .closed, intake.countRejection .auth⟩

/-- Answers a batch. -/
def handle [Diagnostics] (message : Bytes) (intake : Intake) (elapsed : Elapsed) : Turn :=
  let (reply, intake) := intake.handle message elapsed
  ⟨reply.payload, .serving, intake⟩

/-- Answers a message of admissible length. -/
def accept [Diagnostics] (server : Server) (phase : Phase) (message : Bytes) (intake : Intake)
    (elapsed : Elapsed) : Turn :=
  match phase with
  | .authenticating => server.authenticate message intake
  | _ => handle message intake elapsed

/-- Answers a message. -/
def answer [Diagnostics] (server : Server) (phase : Phase) (message : Bytes) (intake : Intake)
    (elapsed : Elapsed) : Turn :=
  if server.limitIn phase < message.length then server.refuse phase message.length intake
  else server.accept phase message intake elapsed

/-- Why a connection ends after it turned down a message for its length. A peer that was only to
offer its token is let go without further notice. -/
def refusalFault (server : Server) (phase : Phase) (size : Nat) : Option FrameError :=
  match phase with
  | .authenticating => none
  | _ => some (.tooLarge size server.limit)

/-- Reads and answers messages until the connection is closed, its peer leaves, or reading or
replying fails. The clock tells how long each message takes, by the number of messages before it. -/
def serveFrom [Diagnostics] (server : Server) (clock : Nat → Elapsed) (turn : Nat) (phase : Phase)
    (inflow : Inflow) (intake : Intake) : Served :=
  if phase = .closed then ⟨[], none, intake⟩
  else
    match _header : inflow.readLength with
    | (.ok none, _) => ⟨[], none, intake⟩
    | (.error fault, _) => ⟨[], some fault, intake⟩
    | (.ok (some size), inner) =>
      if server.limitIn phase < size then
        let refusal := server.refuse phase size intake
        ⟨[refusal.reply], server.refusalFault phase size, refusal.intake⟩
      else
        match _body : inner.readPayload size (server.limitIn phase) with
        | (.error fault, _) => ⟨[], some fault, intake⟩
        | (.ok message, later) =>
          let next := server.accept phase message intake (clock turn)
          match Frame.encode next.reply with
          | .error fault => ⟨[], some fault, next.intake⟩
          | .ok _ =>
            let rest := server.serveFrom clock (turn + 1) next.phase later next.intake
            { rest with replies := next.reply :: rest.replies }
termination_by inflow.bytes.length
decreasing_by
  have header := Inflow.length_bytes_of_readLength _header
  have body := Inflow.length_bytes_of_readPayload _body
  simp only [Inflow.lengthSize] at header
  omega

/-- Reads and answers the messages of a peer. -/
def serve [Diagnostics] (server : Server) (clock : Nat → Elapsed) (inflow : Inflow)
    (intake : Intake) : Served :=
  server.serveFrom clock 0 server.opening inflow intake

end Server

/-- The bytes that a connection writes. -/
def Served.written (served : Served) : Bytes :=
  served.replies.flatMap fun reply => ((Frame.encode reply).toOption).getD []

end LedgerIntake
