import Mathlib.Logic.Function.Basic
import Mathlib.Logic.Relation
import LedgerIntake.Connection

/-!
# Connections that share an intake

Any number of connections work at the same time, each on frames of its own, and all of them offer
their batches to one intake. What a connection does with a batch is cut at the places where another
connection may come between: it takes a frame and decodes it, it examines the rows, it offers the
records to the pool in one call, and it writes the reply. A frame that is no batch, because it is
too long or the token is still due, is answered as soon as it is taken. Drains come from outside at
any moment. What is counted of a batch is counted when it is offered; no step reads a counter.

A connection that breaks off, or whose peer leaves, is one that takes no further step, so every
state of such a run is a state of this one. `exists_turn` relates the steps to the server: taken
without interruption, the steps for one frame are the server's answer to it.
-/

namespace LedgerIntake

/-- Examines what became of decoding. -/
def Examined.ofDecoded : Except Batch.BatchError Batch.Table → Examined
  | .ok table => ofRows table.rows
  | .error cause => .unreadable cause

/-- What is found of a decoded payload is what is found of the payload. -/
theorem Examined.ofDecoded_decode (payload : Bytes) :
    ofDecoded (Batch.decode payload) = ofPayload payload := by
  rw [ofPayload]
  cases Batch.decode payload <;> rfl

/-- A message of admissible length that comes while the connection
serves is handed to the intake. -/
theorem Server.answer_of_le [Diagnostics] {server : Server} {message : Bytes} {intake : Intake}
    {elapsed : Elapsed}
    (within : message.length ≤ server.limit) :
    server.answer .serving message intake elapsed = handle message intake elapsed := by
  have fits : ¬server.limitIn .serving < message.length := Nat.not_lt.mpr within
  rw [answer, if_neg fits]
  rfl

namespace Concurrent

/-- How far a connection has come with the frame that it took last. -/
inductive Stage where
  /-- It is done with it, or there was none. -/
  | waiting
  | decoded (outcome : Except Batch.BatchError Batch.Table)
  | examined (found : Examined)
  /-- The reply is made and not yet written. -/
  | answered (reply : Bytes)

/-- A connection at one moment. -/
structure Connection where
  phase : Phase
  /-- The frames that it took, in order. -/
  taken : List Bytes
  /-- The frames of its peer that it did not take yet, in order. -/
  pending : List Bytes
  stage : Stage
  /-- The replies that it wrote, in order. -/
  written : List Bytes

namespace Connection

/-- A connection whose peer sends frames. -/
def opened (server : Server) (frames : List Bytes) : Connection :=
  ⟨server.opening, [], frames, .waiting, []⟩

/-- The replies that were made, in order: those that are written, and one that is about to be. -/
def replies (connection : Connection) : List Bytes :=
  match connection.stage with
  | .answered reply => connection.written ++ [reply]
  | _ => connection.written

/-- The connection is free to take a frame. -/
structure Awaits (connection : Connection) (frame : Bytes) (rest : List Bytes) : Prop where
  waiting : connection.stage = .waiting
  reads : connection.phase ≠ .closed
  next : connection.pending = frame :: rest

/-- A frame that is decoded: the connection serves, and the frame is not too long. -/
structure Serves (connection : Connection) (server : Server) (frame : Bytes) : Prop where
  serving : connection.phase = .serving
  within : frame.length ≤ server.limit

/-- Takes a frame, which leads to a phase and a stage. -/
def take (connection : Connection) (frame : Bytes) (rest : List Bytes) (phase : Phase)
    (stage : Stage) :
    Connection where
  phase := phase
  taken := connection.taken ++ [frame]
  pending := rest
  stage := stage
  written := connection.written

/-- Comes to another stage with the same frame. -/
def proceed (connection : Connection) (stage : Stage) : Connection :=
  { connection with stage := stage }

/-- Writes a reply. -/
def write (connection : Connection) (reply : Bytes) : Connection :=
  { connection with stage := .waiting, written := connection.written ++ [reply] }

end Connection

/-- A batch that was admitted. -/
structure Admission (Peer : Type) where
  peer : Peer
  /-- How many frames stood before it on its connection. -/
  turn : Nat
  /-- The number of its first record. -/
  first : Nat
  records : List Record

/-- The entries that an admitted batch has in the pool: one for each
record, under consecutive numbers. -/
def Admission.entries {Peer : Type} (admission : Admission Peer) : List PoolEntry :=
  Pool.number admission.first admission.records

/-- All connections at one moment, and what happened to the pool until then. -/
structure State (Peer : Type) where
  intake : Intake
  connections : Peer → Connection
  /-- The batches that were admitted, in order. -/
  admissions : List (Admission Peer)
  /-- What was handed out by draining, in order. -/
  drained : List PoolEntry

variable {Peer : Type}

namespace State

/-- All connections before their first step. -/
def start (server : Server) (intake : Intake) (sent : Peer → List Bytes) : State Peer where
  intake := intake
  connections := fun peer => .opened server (sent peer)
  admissions := []
  drained := []

/-- Everything that the pool ever took in, in order: what was handed out, and what waits. -/
def moved (state : State Peer) : List PoolEntry := state.drained ++ state.intake.pool.entries

/-- The replies of a connection. -/
def replies (state : State Peer) (peer : Peer) : List Bytes := (state.connections peer).replies

/-- Drains the pool. -/
def drain (state : State Peer) (limit : Nat) : State Peer :=
  let (handed, pool) := state.intake.pool.drain limit
  { state with intake := { state.intake with pool := pool }, drained := state.drained ++ handed }

variable [DecidableEq Peer]

/-- Lets one connection change. -/
def put (state : State Peer) (peer : Peer) (connection : Connection) : State Peer :=
  { state with connections := Function.update state.connections peer connection }

/-- Takes a frame that is no batch, and answers it. -/
def answer [Diagnostics] (state : State Peer) (server : Server) (peer : Peer) (frame : Bytes)
    (rest : List Bytes) (elapsed : Elapsed) : State Peer :=
  let connection := state.connections peer
  let turn := server.answer connection.phase frame state.intake elapsed
  { state with intake := turn.intake }.put peer
    (connection.take frame rest turn.phase (.answered turn.reply))

/-- Takes a batch and decodes it. -/
def decode (state : State Peer) (peer : Peer) (frame : Bytes) (rest : List Bytes) : State Peer :=
  let connection := state.connections peer
  state.put peer (connection.take frame rest connection.phase (.decoded (Batch.decode frame)))

/-- Examines what was decoded. -/
def validate (state : State Peer) (peer : Peer) (outcome : Except Batch.BatchError Batch.Table) :
    State Peer :=
  state.put peer ((state.connections peer).proceed (.examined (.ofDecoded outcome)))

/-- The batches that the pool takes in when it is asked by a connection: one or none. The frame is
the last that the connection took. -/
def accession (state : State Peer) (peer : Peer) : Examined → List (Admission Peer)
  | .valid records =>
    match state.intake.pool.admitBatch records with
    | .ok (numbers, _) =>
      [⟨peer, (state.connections peer).taken.length - 1, numbers.first, records⟩]
    | .error _ => []
  | _ => []

/-- Offers what was examined to the pool, and makes the reply. -/
def offer [Diagnostics] (state : State Peer) (peer : Peer) (found : Examined) (elapsed : Elapsed) :
    State Peer :=
  let (reply, pool) := found.offer state.intake.pool
  { state with
      intake := ⟨pool, state.intake.metrics.countBatch found.rowCount? reply elapsed⟩
      admissions := state.admissions ++ state.accession peer found }.put peer
    ((state.connections peer).proceed (.answered reply.payload))

/-- Writes a reply that was made. -/
def write (state : State Peer) (peer : Peer) (reply : Bytes) : State Peer :=
  state.put peer ((state.connections peer).write reply)

end State

variable [DecidableEq Peer] [Diagnostics]

/-- One step of one connection, or a drain. Nothing but its own stage decides whether a connection
may take a step, so any number of others may come between two of them. -/
inductive Step (server : Server) : State Peer → State Peer → Prop where
  | answer {state : State Peer} {peer : Peer} {frame : Bytes}
    {rest : List Bytes} (elapsed : Elapsed)
      (awaits : (state.connections peer).Awaits frame rest)
      (plain : ¬(state.connections peer).Serves server frame) :
      Step server state (state.answer server peer frame rest elapsed)
  | decode {state : State Peer} {peer : Peer} {frame : Bytes} {rest : List Bytes}
      (awaits : (state.connections peer).Awaits frame rest)
      (serves : (state.connections peer).Serves server frame) :
      Step server state (state.decode peer frame rest)
  | validate {state : State Peer} {peer : Peer} {outcome : Except Batch.BatchError Batch.Table}
      (decoded : (state.connections peer).stage = .decoded outcome) :
      Step server state (state.validate peer outcome)
  | offer {state : State Peer} {peer : Peer} {found : Examined} (elapsed : Elapsed)
      (examined : (state.connections peer).stage = .examined found) :
      Step server state (state.offer peer found elapsed)
  | write {state : State Peer} {peer : Peer} {reply : Bytes}
      (answered : (state.connections peer).stage = .answered reply) :
      Step server state (state.write peer reply)
  | drain {state : State Peer} (limit : Nat) : Step server state (state.drain limit)

/-- The states of a server whose pool was created with a capacity, and to which each peer sends its
frames. The connections take their steps in any order. -/
inductive Reachable (server : Server) (capacity : Nat) (sent : Peer → List Bytes) :
    State Peer → Prop where
  | start {intake : Intake} (created : Intake.create capacity = .ok intake) :
      Reachable server capacity sent (.start server intake sent)
  | step {state later : State Peer} (reached : Reachable server capacity sent state)
      (taken : Step server state later) : Reachable server capacity sent later

section Turns

variable {server : Server} {state : State Peer} {peer : Peer} {frame : Bytes} {rest : List Bytes}

/-- Answering at once changes the connection of the peer, and no other. -/
@[simp] theorem State.connections_answer (elapsed : Elapsed) :
    (state.answer server peer frame rest elapsed).connections
      = Function.update state.connections peer
      (let turn := server.answer (state.connections peer).phase frame state.intake elapsed
      (state.connections peer).take frame rest turn.phase (.answered turn.reply)) := rfl

omit [Diagnostics] in
/-- Decoding a frame changes the connection of the peer, and no other. -/
@[simp] theorem State.connections_decode :
    (state.decode peer frame rest).connections = Function.update state.connections peer
      ((state.connections peer).take frame rest (state.connections peer).phase
        (.decoded (Batch.decode frame))) := rfl

omit [Diagnostics] in
/-- Validating what was decoded changes the connection of the peer, and no other. -/
@[simp] theorem State.connections_validate (outcome : Except Batch.BatchError Batch.Table) :
    (state.validate peer outcome).connections = Function.update state.connections peer
      ((state.connections peer).proceed (.examined (.ofDecoded outcome))) := rfl

/-- Offering what was found changes the connection of the peer, and no other.
The pool changes beside it. -/
@[simp] theorem State.connections_offer (found : Examined) (elapsed : Elapsed) :
    (state.offer peer found elapsed).connections = Function.update state.connections peer
      ((state.connections peer).proceed (.answered (found.offer state.intake.pool).1.payload)) :=
        rfl

omit [Diagnostics] in
/-- Writing a reply changes the connection of the peer, and no other. -/
@[simp] theorem State.connections_write (reply : Bytes) :
    (state.write peer reply).connections = Function.update state.connections peer
      ((state.connections peer).write reply) := rfl

/-- A connection took a frame and nobody came between: the server answered the
frame, and its reply is written. -/
structure Turned (server : Server) (peer : Peer) (frame : Bytes) (rest : List Bytes)
    (elapsed : Elapsed)
    (state later : State Peer) : Prop where
  walk : Relation.ReflTransGen (Step server) state later
  intake :
      later.intake
        = (server.answer (state.connections peer).phase frame state.intake elapsed).intake
  drained : later.drained = state.drained
  connections : later.connections = Function.update state.connections peer
    (let turn := server.answer (state.connections peer).phase frame state.intake elapsed
    ((state.connections peer).take frame rest turn.phase .waiting).write turn.reply)

/-- A frame that is no batch takes two steps: it is answered, and the reply is written. -/
theorem turned_of_plain (elapsed : Elapsed) (awaits : (state.connections peer).Awaits frame rest)
    (plain : ¬(state.connections peer).Serves server frame) :
    ∃ later, Turned server peer frame rest elapsed state later := by
  let reply := (server.answer (state.connections peer).phase frame state.intake elapsed).reply
  let answered := state.answer server peer frame rest elapsed
  have first : Step server state answered := .answer elapsed awaits plain
  have second : Step server answered (answered.write peer reply) := by
    apply Step.write
    rw [State.connections_answer, Function.update_self]
    rfl
  refine ⟨answered.write peer reply, (Relation.ReflTransGen.single first).tail second, rfl, rfl, ?_⟩
  rw [State.connections_write, State.connections_answer, Function.update_self, Function.update_idem]
  rfl

/-- A batch takes four steps: it is decoded, its rows are examined, the records are offered to the
pool, and the reply is written. Other connections may take theirs between any two. -/
theorem turned_of_serves (elapsed : Elapsed) (awaits : (state.connections peer).Awaits frame rest)
    (serves : (state.connections peer).Serves server frame) :
    ∃ later, Turned server peer frame rest elapsed state later := by
  let decoded := state.decode peer frame rest
  let validated := decoded.validate peer (Batch.decode frame)
  let found := Examined.ofDecoded (Batch.decode frame)
  let offered := validated.offer peer found elapsed
  let reply := (found.offer state.intake.pool).1.payload
  have first : Step server state decoded := .decode awaits serves
  have second : Step server decoded validated := by
    apply Step.validate
    rw [State.connections_decode, Function.update_self]
    rfl
  have third : Step server validated offered := by
    apply Step.offer
    rw [State.connections_validate, Function.update_self]
    rfl
  have fourth : Step server offered (offered.write peer reply) := by
    apply Step.write
    rw [State.connections_offer, Function.update_self]
    rfl
  have turn : server.answer (state.connections peer).phase frame state.intake elapsed
      = Server.handle frame state.intake elapsed := by
    rw [serves.serving, Server.answer_of_le serves.within]
  have examined : found = .ofPayload frame := Examined.ofDecoded_decode frame
  have walk := (((Relation.ReflTransGen.single first).tail second).tail third).tail fourth
  refine ⟨offered.write peer reply, walk, ?_, rfl, ?_⟩
  · rw [turn, Server.handle, Intake.handle, ← examined]
    rfl
  · rw [turn, Server.handle, Intake.handle, ← examined, State.connections_write,
      State.connections_offer, State.connections_validate, State.connections_decode]
    simp only [Function.update_idem, Function.update_self, Connection.write, Connection.take,
      Connection.proceed, serves.serving]
    rfl

/-- Whatever the frame is, a connection that may take it can take it to
the end without interruption. -/
theorem exists_turn (elapsed : Elapsed) (awaits : (state.connections peer).Awaits frame rest) :
    ∃ later, Turned server peer frame rest elapsed state later := by
  by_cases serves : (state.connections peer).Serves server frame
  · exact turned_of_serves elapsed awaits serves
  · exact turned_of_plain elapsed awaits serves

end Turns

end Concurrent

end LedgerIntake
