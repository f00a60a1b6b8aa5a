import LedgerIntake.Session
import LedgerIntake.Proofs.Acknowledgment.Size
import LedgerIntake.Proofs.Framing

/-!
# Connections as sequences of messages

A connection reads bytes and answers messages. What it answers depends on the messages alone: they
are those of the longest run of complete messages in the stream, each is handled in turn, and what
stands behind the run decides whether one further rejection is written. One lemma tells what a
single message leads to, two tell how a connection ends, and an induction over the run puts them
together.
-/

namespace LedgerIntake

/-- Answers payloads in turn. The clock tells how long each takes, by the
number of payloads before it. -/
def Intake.handleAll [Diagnostics] (clock : Nat → Elapsed) (turn : Nat) (intake : Intake) :
    List Bytes → List Acknowledgment × Intake
  | [] => ([], intake)
  | payload :: rest =>
    let (reply, intake) := intake.handle payload (clock turn)
    let (replies, intake) := handleAll clock (turn + 1) intake rest
    (reply :: replies, intake)

/-- What a connection writes and what becomes of the intake. -/
structure Exchange where
  written : Bytes
  intake : Intake

/-- The rejection of a message for its length. -/
def Rejection.ofExcess (size limit : Nat) : Rejection :=
  ⟨.framing, (FrameError.tooLarge size limit).message, []⟩

/-- The exchange over a stream whose messages are known: one frame for each of them, and one more
for a length above the limit, behind which nothing counts. -/
def Frame.Cut.exchange [Diagnostics] {limit : Nat} {stream : Bytes} (cut : Cut limit stream)
    (clock : Nat → Elapsed)
    (turn : Nat) (intake : Intake) : Exchange :=
  let (replies, intake) := intake.handleAll clock turn cut.messages
  let written := replies.flatMap fun reply => wire reply.payload
  match cut.excess? with
  | none => ⟨written, intake⟩
  | some size =>
    ⟨written ++ wire (Acknowledgment.rejected (.ofExcess size limit)).payload,
      intake.countRejection .framing⟩

/-- A message that was read took some bytes: a length takes four, even
in front of an empty message. -/
theorem Inflow.length_bytes_lt {inflow inner later : Inflow} {size limit : Nat} {message : Bytes}
    (header : inflow.readLength = (.ok (some size), inner))
    (body : inner.readPayload size limit = (.ok message, later)) :
    later.bytes.length < inflow.bytes.length := by
  have taken := length_bytes_of_readLength header
  have left := length_bytes_of_readPayload body
  rw [lengthSize] at taken
  omega

/-- What a connection did, as far as its peer and the intake can tell. -/
def Served.exchange (served : Served) : Exchange := ⟨served.written, served.intake⟩

namespace Server

variable {server : Server} {clock : Nat → Elapsed} {turn : Nat} {inflow : Inflow} {intake : Intake}

/-- Batches are held to the limit that the server was given. -/
@[simp] theorem limitIn_serving : server.limitIn .serving = server.limit := rfl

/-- Until a peer is let in, its messages are held to the smaller limit of requests. -/
@[simp] theorem limitIn_authenticating : server.limitIn .authenticating = requestLimit := rfl

/-- A connection that serves hands the message to the intake and goes on serving. -/
theorem accept_serving [Diagnostics] (message : Bytes) (elapsed : Elapsed) :
    server.accept .serving message intake elapsed =
      ⟨(intake.handle message elapsed).1.payload, .serving, (intake.handle message elapsed).2⟩ :=
        rfl

/-- A connection that serves turns a message down for its length, and closes behind the reply. -/
theorem refuse_serving (size : Nat) :
    server.refuse .serving size intake =
      ⟨(Acknowledgment.rejected (.ofExcess size server.limit)).payload,
        .closed, intake.countRejection .framing⟩ :=
  rfl

/-- A batch that is announced too long ends the connection with a fault that tells both lengths. -/
theorem refusalFault_serving (size : Nat) :
    server.refusalFault .serving size = some (.tooLarge size server.limit) := rfl

/-- A reply that fits behind its length is written as it travels, in front of the later ones. -/
theorem written_cons (reply : Bytes) (served : Served) (fits : reply.length < UInt32.size) :
    Served.written { served with replies := reply :: served.replies }
      = Frame.wire reply ++ served.written := by
  rw [Served.written, List.flatMap_cons, Frame.encode_eq_wire reply fits]
  rfl

/-- What a connection does with what it reads first: it leaves, turns the message down for its
length, or takes it and goes on. Later proofs use this equation and never look into the loop. -/
theorem serveFrom_eq [Diagnostics] {phase : Phase} (active : phase ≠ .closed)
    (clock : Nat → Elapsed) (turn : Nat) :
    server.serveFrom clock turn phase inflow intake =
      match inflow.readLength with
      | (.ok none, _) => ⟨[], none, intake⟩
      | (.error fault, _) => ⟨[], some fault, intake⟩
      | (.ok (some size), inner) =>
        if server.limitIn phase < size then
          let refusal := server.refuse phase size intake
          ⟨[refusal.reply], server.refusalFault phase size, refusal.intake⟩
        else
          match inner.readPayload size (server.limitIn phase) with
          | (.error fault, _) => ⟨[], some fault, intake⟩
          | (.ok message, later) =>
            let next := server.accept phase message intake (clock turn)
            match Frame.encode next.reply with
            | .error fault => ⟨[], some fault, next.intake⟩
            | .ok _ =>
              let rest := server.serveFrom clock (turn + 1) next.phase later next.intake
              { rest with replies := next.reply :: rest.replies } := by
  rw [serveFrom, if_neg active]
  split
  · next header => rw [header]
  · next header => rw [header]
  · next size inner header =>
    rw [header]
    dsimp only
    split
    · rfl
    · split
      · next body => rw [body]
      · next body =>
        generalize inner.readPayload size (server.limitIn phase) = found at body ⊢
        subst body
        rfl

/-- A complete message of admissible length is answered, and the rest of the stream is served in the
phase to which the answer leads. -/
theorem serveFrom_of_accepted [Diagnostics] {phase : Phase} (active : phase ≠ .closed)
    (clock : Nat → Elapsed) (turn : Nat)
    (message after : Bytes) (within : message.length ≤ server.limitIn phase)
    (fits : message.length < UInt32.size)
    (begins : inflow.bytes = Frame.wire message ++ after)
    (replying : (server.accept phase message intake (clock turn)).reply.length < UInt32.size) :
    ∃ later : Inflow, later.bytes = after ∧ later.ending = inflow.ending ∧
      (server.serveFrom clock turn phase inflow intake).exchange =
        let next := server.accept phase message intake (clock turn)
        let rest := (server.serveFrom clock (turn + 1) next.phase later next.intake).exchange
        ⟨Frame.wire next.reply ++ rest.written, rest.intake⟩ := by
  obtain ⟨inner, later, read, payload, laterBytes, laterEnding⟩ :=
    inflow.read_message within fits begins
  refine ⟨later, laterBytes, laterEnding, ?_⟩
  rw [serveFrom_eq active, read]
  dsimp only
  rw [if_neg (Nat.not_lt.mpr within), payload]
  dsimp only
  rw [Frame.encode_eq_wire _ replying, Served.exchange, written_cons _ _ replying]
  rfl

/-- A connection whose stream ends before the bytes that are due writes nothing
more, however the stream ends. -/
theorem serveFrom_of_short [Diagnostics] {phase : Phase} (active : phase ≠ .closed)
    (short : inflow.bytes.length < Inflow.lengthSize + Frame.announced inflow.bytes)
    (plain : inflow.bytes.length < Inflow.lengthSize ∨
      Frame.announced inflow.bytes ≤ server.limitIn phase) :
    (server.serveFrom clock turn phase inflow intake).exchange = ⟨[], intake⟩ := by
  rw [serveFrom_eq active]
  by_cases header : Inflow.lengthSize ≤ inflow.bytes.length
  · have within : Frame.announced inflow.bytes ≤ server.limitIn phase :=
      plain.resolve_left (Nat.not_lt.mpr header)
    obtain ⟨inner, later, fault, read, body⟩ := inflow.read_incomplete header short within
    rw [read]
    dsimp only
    rw [if_neg (Nat.not_lt.mpr within), body]
    rfl
  · split
    · rfl
    · rfl
    · next size inner same =>
        exact absurd same (inflow.readLength_short (Nat.lt_of_not_le header) size inner)

/-- A length above the limit is answered by one rejection, whatever follows it. -/
theorem serveFrom_of_excess [Diagnostics] {phase : Phase} (active : phase ≠ .closed)
    (clock : Nat → Elapsed) (turn : Nat)
    (intake : Intake) (held : Inflow.lengthSize ≤ inflow.bytes.length)
    (exceeds : server.limitIn phase < Frame.announced inflow.bytes)
    (replying : (server.refuse phase (Frame.announced inflow.bytes) intake).reply.length
      < UInt32.size) :
    (server.serveFrom clock turn phase inflow intake).exchange =
      ⟨Frame.wire (server.refuse phase (Frame.announced inflow.bytes) intake).reply,
        (server.refuse phase (Frame.announced inflow.bytes) intake).intake⟩ := by
  obtain ⟨inner, read, -, -⟩ := inflow.readLength_of_le held
  rw [serveFrom_eq active, read]
  dsimp only
  rw [if_pos exceeds]
  have alone :
      Served.written
        ⟨[(server.refuse phase (Frame.announced inflow.bytes) intake).reply], none, intake⟩
      = Frame.wire _ ++ [] := written_cons _ ⟨[], none, intake⟩ replying
  rw [List.append_nil] at alone
  rw [← alone]
  rfl

end Server

end LedgerIntake
