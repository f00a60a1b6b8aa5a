import LedgerIntake.Proofs.Acknowledgment.Reading
import LedgerIntake.Proofs.Admission
import LedgerIntake.Proofs.Connection.Interleaving
import LedgerIntake.Proofs.Pool.Runs

/-!
# Safety across connections

Whatever order the connections take their steps in, and wherever drains come between, the pool took
in whole batches one behind the other, and the replies tell which. Between the examination of a
batch and the call that admits it any number of other batches may take the room; nothing below
depends on what the pool was when the batch was examined.

The invariant has four parts, each about a different side of a state: the pool beside its history, a
connection beside the frames of its peer, the replies beside the batches that were admitted, and the
replies beside the frames. A step touches few of them, and a reply that is made touches the last two
in the same way whatever it says.
-/

namespace LedgerIntake

namespace Examined

/-- A payload that was found to be valid is a batch, and its records are its rows in order. -/
theorem rows_of_valid {payload : Bytes} {records : List Record}
    (valid : ofPayload payload = .valid records) :
    ∃ table, Batch.decode payload = .ok table ∧ records.map Record.row = table.rows := by
  rw [ofPayload] at valid
  split at valid
  · next table decoded =>
    refine ⟨table, decoded, ?_⟩
    by_cases passing : ∀ row ∈ table.rows, Record.fault? row = none
    · rw [ofRows_of_passes passing] at valid
      cases valid
      exact map_row_records passing
    · rw [ofRows_of_fault passing] at valid
      contradiction
  · contradiction

end Examined

/-- The phase in which a server answers a frame, by the number of frames before it. -/
def Server.phaseAt (server : Server) : Nat → Phase
  | 0 => server.opening
  | _ + 1 => .serving

/-- A frame that is no batch leaves the pool alone, its reply is no acceptance, and if the
connection goes on it serves. -/
theorem Server.answer_of_plain [Diagnostics] (server : Server) {phase : Phase} {message : Bytes}
    (intake : Intake)
    (elapsed : Elapsed) (reads : phase ≠ .closed)
    (plain : ¬(phase = .serving ∧ message.length ≤ server.limit)) :
    let turn := server.answer phase message intake elapsed
    turn.intake.pool = intake.pool ∧ turn.reply ≠ Acknowledgment.acceptance ∧
      (turn.phase ≠ .closed → turn.phase = .serving) := by
  rw [answer]
  split
  · exact ⟨rfl, Acknowledgment.payload_ne_acceptance _, fun continues => absurd rfl continues⟩
  · next within =>
    cases phase with
    | closed => exact absurd rfl reads
    | serving => exact absurd ⟨rfl, Nat.le_of_not_lt within⟩ plain
    | authenticating =>
      simp only [accept, authenticate]
      split
      · exact ⟨rfl, Acknowledgment.encode_object_ne_acceptance _, fun _ => rfl⟩
      · exact ⟨rfl, Acknowledgment.encode_object_ne_acceptance _, fun continues =>
          absurd rfl continues⟩

namespace Concurrent

variable {Peer : Type} [DecidableEq Peer]

/-- A reply answers a frame: the run passed through a state in which the connection had no later
reply to make, and the server gave that answer to the frame there. -/
def Answers [Diagnostics] (server : Server) (capacity : Nat) (sent : Peer → List Bytes)
    (state : State Peer) (peer : Peer)
    (turn : Nat) (frame reply : Bytes) : Prop :=
  ∃ (met : State Peer) (elapsed : Elapsed), Reachable server capacity sent met ∧
    Relation.ReflTransGen (Step server) met state ∧ (met.replies peer).length = turn ∧
    reply = (server.answer (server.phaseAt turn) frame met.intake elapsed).reply

/-- What holds of the connections and the pool at every moment. -/
structure Safe [Diagnostics] (server : Server) (capacity : Nat) (sent : Peer → List Bytes)
    (state : State Peer) : Prop where
  /-- What was ever admitted is one whole batch behind the other. Each batch has a range of numbers
  for itself, in which its records stand in order. -/
  whole : state.moved = state.admissions.flatMap Admission.entries
  /-- The numbers count from one, and the pool counts as many. -/
  numbers : state.moved.map PoolEntry.sequence = List.range' 1 state.intake.pool.admittedTotal
  /-- The records of a batch are the rows of the frame that carried it. -/
  rows : ∀ admission ∈ state.admissions, ∃ frame table,
    (sent admission.peer)[admission.turn]? = some frame ∧
    Batch.decode frame = .ok table ∧ admission.records.map Record.row = table.rows
  /-- The batches of one connection were admitted in the order in which it sent them. -/
  ordered : state.admissions.Pairwise fun earlier later => earlier.peer = later.peer →
    earlier.turn < later.turn
  /-- No batch was admitted twice. -/
  once : (state.admissions.map fun admission => (admission.peer, admission.turn)).Nodup
  /-- A batch was admitted if and only if its reply says so, whether
  it is written or about to be. -/
  exact : ∀ peer turn,
    (∃ admission ∈ state.admissions, admission.peer = peer ∧ admission.turn = turn) ↔
      (state.replies peer)[turn]? = some Acknowledgment.acceptance
  /-- A reply answers the frame in its place. -/
  answered : ∀ peer turn reply, (state.replies peer)[turn]? = some reply →
    ∃ frame, (sent peer)[turn]? = some frame ∧
      Answers server capacity sent state peer turn frame reply
  bounded : state.intake.pool.size ≤ capacity

/-- A pool beside what happened to it. -/
structure Stocked (capacity : Nat) (pool : Pool) (drained : List PoolEntry)
    (admissions : List (Admission Peer)) :
    Prop where
  same : pool.capacity = capacity
  whole : drained ++ pool.entries = admissions.flatMap Admission.entries
  numbers : (drained ++ pool.entries).map PoolEntry.sequence = List.range' 1 pool.admittedTotal
  next : pool.nextSequence = 1 + pool.admittedTotal
  bounded : pool.size ≤ capacity

namespace Stocked

omit [DecidableEq Peer]

variable {capacity : Nat} {pool : Pool} {drained : List PoolEntry}
    {admissions : List (Admission Peer)}

/-- The records of a batch get the numbers behind those that were given, so the numbers of all
admissions stay in step with the pool. -/
theorem extend (stocked : Stocked capacity pool drained admissions) (admission : Admission Peer)
    (room : admission.records.length ≤ pool.available)
    (first : admission.first = pool.nextSequence) :
    Stocked capacity (pool.extend admission.records) drained (admissions ++ [admission]) where
  same := stocked.same
  whole := by
    simp only [Pool.extend, List.flatMap_append, List.flatMap_singleton, ← stocked.whole,
      List.append_assoc, Admission.entries, first]
  numbers := by
    simp only [Pool.extend, ← List.append_assoc]
    rw [List.map_append, stocked.numbers, Pool.map_sequence_number, stocked.next,
      List.range'_append_1]
  next := by
    simp only [Pool.extend, stocked.next, Nat.add_assoc]
  bounded := by
    have fits := stocked.bounded
    have same := stocked.same
    simp only [Pool.available, Pool.size] at room fits
    simp only [Pool.size, Pool.extend, List.length_append, Pool.length_number]
    omega

/-- What a drain hands out goes from the front of the pool to the end of what was handed out. -/
theorem drain (stocked : Stocked capacity pool drained admissions) (limit : Nat) :
    Stocked capacity (pool.drain limit).2 (drained ++ (pool.drain limit).1) admissions := by
  have moved : drained ++ (pool.drain limit).1 ++ (pool.drain limit).2.entries
    = drained ++ pool.entries := by
    rw [Pool.drain_eq, List.append_assoc, Pool.peek, List.take_append_drop]
  constructor
  case same => exact stocked.same
  case whole => rw [moved, stocked.whole]
  case numbers => rw [moved, stocked.numbers]; rfl
  case next => exact stocked.next
  case bounded =>
    have fits := stocked.bounded
    rw [Pool.drain_eq]
    simp only [Pool.size, List.length_drop] at fits ⊢
    omega

end Stocked

omit [DecidableEq Peer] in
/-- What is offered to the pool is taken in under the next numbers, or it is rejected
and the pool stays as it is. -/
theorem State.admission_cases [Diagnostics] (state : State Peer) (peer : Peer) (found : Examined) :
    (∃ records, found = .valid records ∧ records.length ≤ state.intake.pool.available ∧
        found.offer state.intake.pool = (.accepted, state.intake.pool.extend records) ∧
        state.accession peer found
          = [⟨peer, (state.connections peer).taken.length - 1,
            state.intake.pool.nextSequence, records⟩]) ∨
      (∃ rejection, found.offer state.intake.pool = (.rejected rejection, state.intake.pool)) ∧
        state.accession peer found = [] := by
  cases found with
  | unreadable cause => exact .inr ⟨⟨_, rfl⟩, rfl⟩
  | invalid rows faults => exact .inr ⟨⟨_, rfl⟩, rfl⟩
  | valid records =>
    rcases Nat.lt_or_ge state.intake.pool.available records.length with exceeds | room
    · right
      refine ⟨⟨_, Examined.offer_of_lt _ records exceeds⟩, ?_⟩
      simp only [accession, Pool.admitBatch_of_lt _ records exceeds]
    · left
      refine ⟨records, rfl, room, Examined.offer_of_le _ records room, ?_⟩
      simp only [accession, Pool.admitBatch_of_le _ records room]

/-- The frame that a connection works on: the last that it took, and the first
without a reply. It is a batch. -/
structure Current (server : Server) (taken written : List Bytes) (frame : Bytes) : Prop where
  ahead : taken.length = written.length + 1
  held : taken[written.length]? = some frame
  serving : server.phaseAt written.length = .serving
  within : frame.length ≤ server.limit

/-- What a stage has to do with the frames that were taken and the replies that were written. -/
inductive Stage.Fits (server : Server) (taken written : List Bytes) : Stage → Prop where
  | waiting (level : taken.length = written.length) : Fits server taken written .waiting
  | decoded {frame : Bytes} (current : Current server taken written frame) :
      Fits server taken written (.decoded (Batch.decode frame))
  | examined {frame : Bytes} (current : Current server taken written frame) :
      Fits server taken written (.examined (.ofPayload frame))
  | answered {reply : Bytes} (ahead : taken.length = written.length + 1) :
      Fits server taken written (.answered reply)

namespace Connection

/-- A connection beside the frames of its peer. -/
structure Sound (server : Server) (frames : List Bytes) (connection : Connection) : Prop where
  whole : connection.taken ++ connection.pending = frames
  phase : connection.phase ≠ .closed → connection.phase = server.phaseAt connection.taken.length
  fits : connection.stage.Fits server connection.taken connection.written

namespace Sound

variable {server : Server} {frames : List Bytes} {connection : Connection} {frame : Bytes}
    {rest : List Bytes}

/-- A connection on which nothing has happened is sound: it waits for its first frame. -/
theorem opened (server : Server) (frames : List Bytes) :
    Sound server frames (.opened server frames) where
  whole := rfl
  phase := fun _ => rfl
  fits := .waiting rfl

/-- A connection that waits has replied to every frame that it took, so it takes the next one. -/
theorem level (sound : connection.Sound server frames) (waiting : connection.stage = .waiting) :
    connection.taken.length = connection.written.length := by
  have fits := sound.fits
  rw [waiting] at fits
  cases fits with
  | waiting level => exact level

/-- The frame that is taken is the one behind the last reply, so frames are answered in order. -/
theorem getElem?_of_awaits (sound : connection.Sound server frames)
    (awaits : connection.Awaits frame rest) :
    frames[connection.written.length]? = some frame := by
  rw [← sound.whole, awaits.next, ← sound.level awaits.waiting,
    List.getElem?_append_right (Nat.le_refl _), Nat.sub_self]
  rfl

/-- Taking the next frame leaves a connection sound, if its new stage fits what was taken. -/
theorem take (sound : connection.Sound server frames) (awaits : connection.Awaits frame rest)
    {phase : Phase}
    {stage : Stage} (continues : phase ≠ .closed → phase = .serving)
    (fits : stage.Fits server (connection.taken ++ [frame]) connection.written) :
    (connection.take frame rest phase stage).Sound server frames where
  whole := by
    rw [← sound.whole, awaits.next]
    exact List.append_assoc _ [frame] rest
  phase := by
    intro reads
    simp only [Connection.take, List.length_append]
    exact continues reads
  fits := fits

/-- What was decoded is the frame that is worked on, and so is what was examined. -/
theorem of_decoded (sound : connection.Sound server frames)
    {outcome : Except Batch.BatchError Batch.Table}
    (decoded : connection.stage = .decoded outcome) :
    ∃ frame, outcome = Batch.decode frame ∧
      Current server connection.taken connection.written frame := by
  have fits := sound.fits
  rw [decoded] at fits
  cases fits with
  | decoded current => exact ⟨_, rfl, current⟩

/-- What a connection has examined is found of the frame that it answers now. -/
theorem of_examined (sound : connection.Sound server frames) {found : Examined}
    (examined : connection.stage = .examined found) :
    ∃ frame, found = .ofPayload frame ∧
      Current server connection.taken connection.written frame := by
  have fits := sound.fits
  rw [examined] at fits
  cases fits with
  | examined current => exact ⟨_, rfl, current⟩

/-- The frame that is worked on is the one behind the last reply, also
between the steps of a batch. -/
theorem getElem?_of_current (sound : connection.Sound server frames)
    (current : Current server connection.taken connection.written frame) :
    frames[connection.written.length]? = some frame := by
  rw [← sound.whole, List.getElem?_append_left (List.getElem?_eq_some_iff.mp current.held).1]
  exact current.held

/-- A batch that is taken is worked on, with one frame more taken than answered. -/
theorem current (sound : connection.Sound server frames) (awaits : connection.Awaits frame rest)
    (serves : connection.Serves server frame) :
    Current server (connection.taken ++ [frame]) connection.written frame where
  ahead := by rw [List.length_append, sound.level awaits.waiting]; rfl
  held := by
    rw [← sound.level awaits.waiting, List.getElem?_append_right (Nat.le_refl _), Nat.sub_self]
    rfl
  serving := by rw [← sound.level awaits.waiting, ← sound.phase awaits.reads, serves.serving]
  within := serves.within

/-- A stage that fits may follow in a sound connection, since what was taken and written stays. -/
theorem proceed (sound : connection.Sound server frames) {stage : Stage}
    (fits : stage.Fits server connection.taken connection.written) :
    (connection.proceed stage).Sound server frames where
  whole := sound.whole
  phase := sound.phase
  fits := fits

/-- Writing the reply that was due leaves a connection sound, and it awaits its next frame. -/
theorem write (sound : connection.Sound server frames) {reply : Bytes}
    (answered : connection.stage = .answered reply) :
    (connection.write reply).Sound server frames where
  whole := sound.whole
  phase := sound.phase
  fits := by
    have fits := sound.fits
    rw [answered] at fits
    cases fits with
    | answered ahead =>
      apply Stage.Fits.waiting
      simp only [Connection.write, ahead, List.length_append, List.length_singleton]

end Sound

end Connection

/-- The replies beside the batches that were admitted. -/
structure Matched (sent replies : Peer → List Bytes)
    (admissions : List (Admission Peer)) : Prop where
  rows : ∀ admission ∈ admissions, ∃ frame table,
    (sent admission.peer)[admission.turn]? = some frame ∧
      Batch.decode frame = .ok table ∧ admission.records.map Record.row = table.rows
  ordered : admissions.Pairwise fun earlier later =>
    earlier.peer = later.peer → earlier.turn < later.turn
  exact : ∀ peer turn, (∃ admission ∈ admissions, admission.peer = peer ∧ admission.turn = turn) ↔
    (replies peer)[turn]? = some Acknowledgment.acceptance

/-- A reply that is made stands behind the others of its connection, and nothing else changes. -/
theorem getElem?_update_append (replies : Peer → List Bytes) (peer other : Peer) (turn : Nat)
    (reply found : Bytes) :
    (Function.update replies peer (replies peer ++ [reply]) other)[turn]? = some found ↔
      (replies other)[turn]? = some found ∨ other = peer ∧ turn = (replies peer).length ∧
        reply = found := by
  by_cases same : other = peer
  · subst same
    rw [Function.update_self, List.getElem?_append]
    split
    · next inside =>
      have elsewhere : turn ≠ (replies other).length := Nat.ne_of_lt inside
      simp only [elsewhere, false_and, and_false, or_false]
    · next outside =>
      have none : (replies other)[turn]? = none := List.getElem?_eq_none (Nat.le_of_not_lt outside)
      rw [none, List.getElem?_singleton, Option.ite_none_right_eq_some, Option.some.injEq]
      simp only [reduceCtorEq, false_or, true_and]
      have place : turn - (replies other).length = 0 ↔ turn = (replies other).length := by omega
      rw [place]
  · rw [Function.update_of_ne same]
    simp only [same, false_and, or_false]

namespace Matched

variable {sent replies : Peer → List Bytes} {admissions : List (Admission Peer)}

omit [DecidableEq Peer] in
/-- No batch of a connection is admitted twice, because each stands at a
later place than the one before. -/
theorem once (matched : Matched sent replies admissions) :
    (admissions.map fun admission => (admission.peer, admission.turn)).Nodup := by
  apply List.pairwise_map.mpr
  apply matched.ordered.imp
  intro earlier later before same
  obtain ⟨peer, turn⟩ := Prod.mk.inj same
  exact Nat.ne_of_lt (before peer) turn

/-- A reply that is no acceptance goes with no admission, so the accounts stay as they are. -/
theorem refuse (matched : Matched sent replies admissions) (peer : Peer) {reply : Bytes}
    (other : reply ≠ Acknowledgment.acceptance) :
    Matched sent (Function.update replies peer (replies peer ++ [reply])) admissions where
  rows := matched.rows
  ordered := matched.ordered
  exact := by
    intro peer' turn
    rw [getElem?_update_append, matched.exact peer' turn]
    constructor
    · exact Or.inl
    · rintro (same | ⟨_, _, accepted⟩)
      · exact same
      · exact absurd accepted other

/-- An acceptance goes with the admission of the batch whose reply is next. Earlier
acceptances keep their admissions. -/
theorem accept (matched : Matched sent replies admissions) (admission : Admission Peer)
    (next : admission.turn = (replies admission.peer).length)
    (rows : ∃ frame table, (sent admission.peer)[admission.turn]? = some frame ∧
      Batch.decode frame = .ok table ∧ admission.records.map Record.row = table.rows) :
    Matched sent
      (Function.update replies admission.peer
        (replies admission.peer ++ [Acknowledgment.acceptance]))
      (admissions ++ [admission]) where
  rows := by
    intro among member
    rcases List.mem_append.mp member with earlier | last
    · exact matched.rows among earlier
    · rw [List.mem_singleton.mp last]
      exact rows
  ordered := by
    refine List.pairwise_append.mpr ⟨matched.ordered, List.pairwise_singleton _ _, ?_⟩
    intro earlier member later last same
    rw [List.mem_singleton.mp last] at same ⊢
    -- The earlier batch has its reply already, and the later one does not.
    have replied := (matched.exact earlier.peer earlier.turn).mp ⟨earlier, member, rfl, rfl⟩
    rw [same] at replied
    rw [next]
    exact (List.getElem?_eq_some_iff.mp replied).1
  exact := by
    intro peer turn
    rw [getElem?_update_append, ← matched.exact peer turn]
    constructor
    · rintro ⟨among, member, rfl, rfl⟩
      rcases List.mem_append.mp member with earlier | last
      · exact .inl ⟨among, earlier, rfl, rfl⟩
      · rw [List.mem_singleton.mp last]
        exact .inr ⟨rfl, next, rfl⟩
    · rintro (⟨among, earlier, here⟩ | ⟨rfl, rfl, -⟩)
      · exact ⟨among, List.mem_append_left _ earlier, here⟩
      · exact ⟨admission, List.mem_append_right _ List.mem_cons_self, rfl, next⟩

end Matched

variable {server : Server} {capacity : Nat} {sent : Peer → List Bytes}
  {state : State Peer} {peer : Peer}
  {frame : Bytes} {rest : List Bytes}

/-- What every step keeps. -/
structure Invariant [Diagnostics] (server : Server) (capacity : Nat) (sent : Peer → List Bytes)
    (state : State Peer) : Prop where
  stocked : Stocked capacity state.intake.pool state.drained state.admissions
  sound : ∀ peer, (state.connections peer).Sound server (sent peer)
  matched : Matched sent state.replies state.admissions
  answered : ∀ peer turn reply, (state.replies peer)[turn]? = some reply →
    ∃ frame, (sent peer)[turn]? = some frame ∧
      Answers server capacity sent state peer turn frame reply

namespace Invariant

/-- A new server has an empty pool, and nothing was taken or written, so
the invariant holds at first. -/
theorem start [Diagnostics] {intake : Intake} (created : Intake.create capacity = .ok intake) :
    Invariant server capacity sent (.start server intake sent) := by
  have silent (peer : Peer) : (State.start server intake sent).replies peer = [] := rfl
  have empty : intake.pool = ⟨capacity, [], 1, 0, 0⟩ := by
    rw [Intake.create, Pool.create] at created
    split at created
    · contradiction
    · cases created
      rfl
  constructor
  case stocked =>
    rw [State.start, empty]
    exact ⟨rfl, rfl, rfl, rfl, Nat.zero_le _⟩
  case sound =>
    intro peer
    exact Connection.Sound.opened server (sent peer)
  case matched =>
    constructor
    · rintro _ ⟨⟩
    · exact .nil
    intro peer turn
    rw [silent]
    constructor
    · rintro ⟨_, ⟨⟩, _⟩
    · rintro ⟨⟩
  case answered =>
    intro peer turn reply made
    rw [silent] at made
    cases made

/-- Putting a connection in its place puts its replies there. -/
theorem replies_put (connection : Connection) :
    (state.put peer connection).replies
      = Function.update state.replies peer connection.replies := by
  funext other
  exact Function.apply_update (fun _ => Connection.replies) state.connections peer connection other

/-- Putting a sound connection in its place leaves all connections sound,
as no other one is touched. -/
theorem sound_put [Diagnostics] (invariant : Invariant server capacity sent state)
    {connection : Connection}
    (sound : connection.Sound server (sent peer)) (other : Peer) :
    ((state.put peer connection).connections other).Sound server (sent other) := by
  have all : ∀ other, (Function.update state.connections peer connection other).Sound
    server (sent other) := by
    apply (Function.forall_update_iff state.connections fun other at' =>
      at'.Sound server (sent other)).mpr
    exact ⟨sound, fun other _ => invariant.sound other⟩
  exact all other

/-- A reply that answered a frame goes on doing so: later steps are added behind the
state from which it was given. -/
theorem answered_later [Diagnostics] (invariant : Invariant server capacity sent state)
    {later : State Peer}
    (taken : Step server state later) (other : Peer) (turn : Nat) (reply : Bytes)
    (made : (state.replies other)[turn]? = some reply) :
    ∃ frame, (sent other)[turn]? = some frame ∧
      Answers server capacity sent later other turn frame reply := by
  obtain ⟨frame, place, met, elapsed, reached, passed, next, given⟩ :=
    invariant.answered other turn reply made
  exact ⟨frame, place, met, elapsed, reached, passed.tail taken, next, given⟩

/-- A reply that is made for the frame in its place may stand behind the others. -/
theorem answered_append [Diagnostics] (invariant : Invariant server capacity sent state)
    (reached : Reachable server capacity sent state) {later : State Peer}
    (taken : Step server state later) (elapsed : Elapsed) {reply : Bytes}
    (place : (sent peer)[(state.replies peer).length]? = some frame)
    (given : reply =
      (server.answer (server.phaseAt (state.replies peer).length) frame state.intake elapsed).reply)
    (made : later.replies = Function.update state.replies peer (state.replies peer ++ [reply]))
    (other : Peer) (turn : Nat) (found : Bytes)
    (there : (later.replies other)[turn]? = some found) :
    ∃ frame, (sent other)[turn]? = some frame ∧
      Answers server capacity sent later other turn frame found := by
  rw [made] at there
  rcases (getElem?_update_append _ _ _ _ _ _).mp there with earlier | ⟨rfl, rfl, rfl⟩
  · exact invariant.answered_later taken other turn found earlier
  · exact ⟨frame, place, state, elapsed, reached, .single taken, rfl, given⟩

/-- A connection takes a step that makes no reply, and the accounts stay as they are. -/
theorem put [Diagnostics] (invariant : Invariant server capacity sent state)
    {connection : Connection}
    (taken : Step server state (state.put peer connection))
    (sound : connection.Sound server (sent peer))
    (quiet : connection.replies = state.replies peer) :
    Invariant server capacity sent (state.put peer connection) := by
  have same : (state.put peer connection).replies = state.replies := by
    rw [replies_put, quiet, Function.update_eq_self]
  constructor
  case stocked => exact invariant.stocked
  case sound => exact invariant.sound_put sound
  case matched =>
    rw [same]
    exact invariant.matched
  case answered =>
    rw [same]
    exact invariant.answered_later taken

/-- A frame that is no batch leaves the pool and the admissions alone. Its reply is the
connection's own, and is no acceptance. -/
theorem answer [Diagnostics] (invariant : Invariant server capacity sent state)
    (reached : Reachable server capacity sent state)
    (elapsed : Elapsed) (awaits : (state.connections peer).Awaits frame rest)
    (plain : ¬(state.connections peer).Serves server frame) :
    Invariant server capacity sent (state.answer server peer frame rest elapsed) := by
  let connection := state.connections peer
  let turn := server.answer connection.phase frame state.intake elapsed
  have sound : connection.Sound server (sent peer) := invariant.sound peer
  have level := sound.level awaits.waiting
  have written : state.replies peer = connection.written := by
    rw [State.replies, Connection.replies, awaits.waiting]
  have made : (state.answer server peer frame rest elapsed).replies
      = Function.update state.replies peer (state.replies peer ++ [turn.reply]) := by
    rw [written]
    exact replies_put _
  obtain ⟨pool, other, continues⟩ := server.answer_of_plain state.intake elapsed awaits.reads
    (fun both => plain ⟨both.1, both.2⟩)
  constructor
  case stocked =>
    have stocked := invariant.stocked
    rw [← pool] at stocked
    exact stocked
  case sound =>
    apply invariant.sound_put (sound.take awaits continues (.answered _))
    rw [List.length_append, level]
    rfl
  case matched =>
    rw [made]
    exact invariant.matched.refuse peer other
  case answered =>
    have place : (sent peer)[(state.replies peer).length]? = some frame := by
      rw [written]
      exact sound.getElem?_of_awaits awaits
    apply invariant.answered_append reached (.answer elapsed awaits plain) elapsed place ?_ made
    rw [written, ← level, ← sound.phase awaits.reads]

/-- The pool and the list of admissions change together or not at all, and the reply tells which. -/
theorem admission [Diagnostics] (invariant : Invariant server capacity sent state)
    {found : Examined}
    (current : Current server (state.connections peer).taken (state.replies peer) frame)
    (payload : found = .ofPayload frame)
    (place : (sent peer)[(state.replies peer).length]? = some frame) :
    Stocked capacity (found.offer state.intake.pool).2 state.drained
        (state.admissions ++ state.accession peer found) ∧
      Matched sent
        (Function.update state.replies peer
          (state.replies peer ++ [(found.offer state.intake.pool).1.payload]))
        (state.admissions ++ state.accession peer found) := by
  rcases state.admission_cases peer found with
    ⟨records, valid, room, offered, accession⟩ | ⟨⟨rejection, offered⟩, none⟩
  · let admission : Admission Peer :=
      ⟨peer, (state.connections peer).taken.length - 1, state.intake.pool.nextSequence, records⟩
    have next : admission.turn = (state.replies peer).length := Nat.sub_eq_of_eq_add current.ahead
    have carried : (sent peer)[admission.turn]? = some frame := by
      rw [next]
      exact place
    obtain ⟨table, decoded, rows⟩ := Examined.rows_of_valid (payload.symm.trans valid)
    rw [offered, accession]
    constructor
    · exact invariant.stocked.extend admission room rfl
    · exact invariant.matched.accept admission next ⟨frame, table, carried, decoded, rows⟩
  · rw [offered, none, List.append_nil]
    constructor
    · exact invariant.stocked
    · exact invariant.matched.refuse peer (Acknowledgment.payload_ne_acceptance rejection)

/-- A batch that is offered to the pool is admitted or not. In the first case the pool, the
admissions and the replies grow together. -/
theorem offer [Diagnostics] (invariant : Invariant server capacity sent state)
    (reached : Reachable server capacity sent state)
    {found : Examined} (elapsed : Elapsed)
    (examined : (state.connections peer).stage = .examined found) :
    Invariant server capacity sent (state.offer peer found elapsed) := by
  let connection := state.connections peer
  let reply := (found.offer state.intake.pool).1.payload
  have sound : connection.Sound server (sent peer) := invariant.sound peer
  have written : state.replies peer = connection.written := by
    rw [State.replies, Connection.replies, examined]
  have made : (state.offer peer found elapsed).replies
      = Function.update state.replies peer (state.replies peer ++ [reply]) := by
    rw [written]
    exact replies_put _
  obtain ⟨frame, payload, current⟩ := sound.of_examined examined
  have place := sound.getElem?_of_current current
  have answering : (connection.proceed (.answered reply)).Sound server (sent peer) :=
    sound.proceed (.answered current.ahead)
  rw [← written] at current place
  have sides := invariant.admission current payload place
  constructor
  case stocked => exact sides.1
  case sound => exact invariant.sound_put answering
  case matched =>
    rw [made]
    exact sides.2
  case answered =>
    apply invariant.answered_append reached (.offer elapsed examined) elapsed place ?_ made
    rw [current.serving, Server.answer_of_le current.within]
    exact congrArg (fun found => (Examined.offer found state.intake.pool).1.payload) payload

/-- Every step keeps the invariant, by one case for each kind of step. -/
theorem step [Diagnostics] (invariant : Invariant server capacity sent state)
    (reached : Reachable server capacity sent state)
    {later : State Peer} (taken : Step server state later) :
    Invariant server capacity sent later := by
  have walk := taken
  cases taken with
  | answer elapsed awaits plain => exact invariant.answer reached elapsed awaits plain
  | @decode peer frame rest awaits serves =>
    have sound := invariant.sound peer
    have fits := Stage.Fits.decoded (sound.current awaits serves)
    apply invariant.put walk (sound.take awaits (fun _ => serves.serving) fits)
    rw [State.replies, Connection.replies, Connection.replies, awaits.waiting]
    rfl
  | @validate peer outcome decoded =>
    have sound := invariant.sound peer
    obtain ⟨frame, rfl, current⟩ := sound.of_decoded decoded
    rw [State.validate, Examined.ofDecoded_decode] at walk ⊢
    apply invariant.put walk (sound.proceed (.examined current))
    rw [State.replies, Connection.replies, Connection.replies, decoded]
    rfl
  | offer elapsed examined => exact invariant.offer reached elapsed examined
  | @write peer reply answered =>
    apply invariant.put walk ((invariant.sound peer).write answered)
    rw [State.replies, Connection.replies, Connection.replies, answered]
    rfl
  | drain limit =>
    constructor
    case stocked => exact invariant.stocked.drain limit
    case sound => exact invariant.sound
    case matched => exact invariant.matched
    case answered => exact invariant.answered_later walk

/-- Every reachable state has the invariant. The induction is on the steps that led to the state. -/
theorem of_reachable [Diagnostics] (reached : Reachable server capacity sent state) :
    Invariant server capacity sent state := by
  induction reached with
  | start created => exact start created
  | step reached taken inductionHypothesis => exact inductionHypothesis.step reached taken

end Invariant

/-- Whatever the connections did and in whichever order, they and the pool are safe. All of it is
read off one invariant, which every step keeps: it tells what each connection holds between taking a
frame and answering it, and how the replies account for the pool. -/
theorem safe_of_reachable [Diagnostics] {Peer : Type} [DecidableEq Peer] {server : Server}
    {capacity : Nat}
    {sent : Peer → List Bytes} {state : State Peer}
    (reached : Reachable server capacity sent state) :
    Safe server capacity sent state := by
  have invariant := Invariant.of_reachable reached
  constructor
  case whole => exact invariant.stocked.whole
  case numbers => exact invariant.stocked.numbers
  case rows => exact invariant.matched.rows
  case ordered => exact invariant.matched.ordered
  case once => exact invariant.matched.once
  case exact => exact invariant.matched.exact
  case answered => exact invariant.answered
  case bounded => exact invariant.stocked.bounded

section Crossing

attribute [local instance] Diagnostics.plain

/-- A batch of one record. -/
def leastFrame : Bytes :=
  [84, 67, 66, 49, 1, 0, 0, 0, 3, 0, 0, 0, 1, 0, 0, 0, 9, 0,
    101, 110, 116, 105, 116, 121, 95, 105, 100, 4, 0, 0, 0, 7,
    0, 0, 0, 1, 2, 0, 0, 0, 101, 49, 10, 0, 101, 118, 101, 110,
      116, 95, 116, 121, 112, 101, 4, 0, 0, 0, 11, 0, 0, 0, 1,
    6, 0, 0, 0, 99, 114, 101, 97, 116, 101, 9, 0, 116, 105, 109,
      101, 115, 116, 97, 109, 112, 2, 0, 0, 0, 9, 0, 0, 0, 1,
    1, 0, 0, 0, 0, 0, 0, 0]

/-- Two connections examine their batches before either is admitted, and there is room for one. -/
def examinedBoth : State Bool :=
  let outcome := Batch.decode leastFrame
  let begun := State.start ⟨⟨none⟩, 1000⟩ ⟨⟨1, [], 1, 0, 0⟩, .fresh⟩ fun _ => [leastFrame]
  (((begun.decode true leastFrame []).decode false leastFrame []).validate
    true outcome).validate false outcome

/-- The one that offers its batch first takes the room, and writes its
reply. Then the pool is drained. -/
def crossed : State Bool :=
  let found := Examined.ofDecoded (Batch.decode leastFrame)
  let offered := (examinedBoth.offer false found ⟨0, 0⟩).offer true found ⟨0, 0⟩
  (offered.write false (found.offer examinedBoth.intake.pool).1.payload).drain 5

/-- The crossed state is reached: two frames are decoded and examined, then one is offered and the
other, the reply to one is written, and the pool is drained. -/
theorem reachable_crossed : Reachable ⟨⟨none⟩, 1000⟩ 1 (fun _ => [leastFrame]) crossed := by
  have both : Reachable ⟨⟨none⟩, 1000⟩ 1 (fun _ => [leastFrame]) examinedBoth := by
    apply Reachable.step _ (.validate rfl)
    apply Reachable.step _ (.validate rfl)
    apply Reachable.step _ (.decode ⟨rfl, by decide, rfl⟩ ⟨rfl, by decide⟩)
    apply Reachable.step _ (.decode ⟨rfl, by decide, rfl⟩ ⟨rfl, by decide⟩)
    exact Reachable.start rfl
  apply Reachable.step _ (.drain 5)
  apply Reachable.step _ (.write rfl)
  apply Reachable.step _ (.offer _ rfl)
  apply Reachable.step _ (.offer _ rfl)
  exact both

/-- The connection whose batch was refused is told so, and the record of
the other one was handed out. -/
theorem safe_of_reachable_crossed :
    Reachable ⟨⟨none⟩, 1000⟩ 1 (fun _ => [leastFrame]) crossed ∧
    Safe ⟨⟨none⟩, 1000⟩ 1 (fun _ => [leastFrame]) crossed ∧
    crossed.replies false = [Acknowledgment.acceptance] ∧
    crossed.replies true = [(Acknowledgment.rejected
      ⟨.capacity, "mempool capacity exceeded: 1 requested, 0 of 1 available", []⟩).payload] ∧
    crossed.drained.length = 1 := by
  refine ⟨reachable_crossed, safe_of_reachable reachable_crossed, ?_⟩
  decide +kernel

end Crossing

end Concurrent

end LedgerIntake
