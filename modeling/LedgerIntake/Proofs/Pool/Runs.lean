import Mathlib.Algebra.Ring.Nat
import LedgerIntake.Proofs.Pool

/-!
# Runs of calls

Several callers share a pool that answers one call at a time. Whatever they do together is therefore
a list of turns, in the order in which the calls take effect, and every such list is a run. A turn
leaves an event: the pool that the call met, and the reply. The events tell which entries were given
to records and which entries left the pool, and `Moves` is the law that ties both to the pool at
either end: one lemma for each kind of call, and an induction for whole runs.

Two results are read off it for pools that begin empty. `create_accounts` says that the numbers and
counters of the pool are in step with what the callers were told. `create_queues` says that the pool
is a queue: what left it and what waits in it is what was admitted, in order, and nothing else.
-/

namespace LedgerIntake

/-- The numbers of a range, in order. -/
def SequenceRange.numbers (range : SequenceRange) : List Nat :=
  List.range' range.first (range.past - range.first)

namespace Pool

/-- A call of one of several callers. -/
structure Turn (Caller : Type) where
  caller : Caller
  call : Call

/-- A call that was answered: the pool that it met, and the reply. -/
structure Event (Caller : Type) extends Turn Caller where
  before : Pool
  reply : Reply

variable {Caller : Type}

/-- The events of turns that are taken one after the other. -/
def events (pool : Pool) : List (Turn Caller) → List (Event Caller)
  | [] => []
  | turn :: rest =>
    let (reply, later) := pool.perform turn.call
    ⟨turn, pool, reply⟩ :: events later rest

/-- The pool that turns leave. -/
def after (pool : Pool) (turns : List (Turn Caller)) : Pool :=
  (pool.performAll (turns.map Turn.call)).2

namespace Event

variable (event : Event Caller)

/-- The entries that a reply gives to records: one for a number, and one
for each number of a range. -/
def admitted : List PoolEntry :=
  match event.call, event.reply with
  | .admitOne record, .sequence number => [⟨number, record⟩]
  | .admitBatch records, .range range => List.zipWith PoolEntry.mk range.numbers records
  | _, _ => []

/-- The entries that a drain hands out. -/
def drained : List PoolEntry :=
  match event.call, event.reply with
  | .drain _, .entries held => held
  | _, _ => []

/-- The number of entries that a clear tells to have dropped. -/
def dropped : Nat :=
  match event.call, event.reply with
  | .clear, .count dropped => dropped
  | _, _ => 0

/-- The entries that leave the pool: those that a drain hands out, and all that a clear meets. -/
def removed : List PoolEntry :=
  match event.call with
  | .clear => event.before.snapshot
  | _ => event.drained

end Event

/-- The events are the turns, each with the reply that the run gives it. -/
theorem map_events (pool : Pool) (turns : List (Turn Caller)) :
    (pool.events turns).map (fun event => (event.toTurn, event.reply))
      = turns.zip (pool.performAll (turns.map Turn.call)).1 := by
  induction turns generalizing pool with
  | nil => rfl
  | cons turn rest inductionHypothesis =>
    exact congrArg (List.cons _) (inductionHypothesis (pool.perform turn.call).2)

section Perform

variable (pool : Pool) (records : List Record) (record : Record)

/-- A batch for which there is room is admitted, under the next numbers. -/
theorem perform_admitBatch_of_le (room : records.length ≤ pool.available) :
    pool.perform (.admitBatch records)
      = (.range ⟨pool.nextSequence, pool.nextSequence + records.length⟩, pool.extend records) := by
  rw [perform, pool.admitBatch_of_le records room]

/-- A batch for which there is no room changes nothing, not even the next number. -/
theorem perform_admitBatch_of_lt (exceeds : pool.available < records.length) :
    pool.perform (.admitBatch records)
      = (.refused (.capacityExceeded pool.capacity records.length pool.available), pool) := by
  rw [perform, pool.admitBatch_of_lt records exceeds]

/-- A single record is admitted like a batch that holds nothing else. -/
theorem perform_admitOne_of_le (room : 1 ≤ pool.available) :
    pool.perform (.admitOne record) = (.sequence pool.nextSequence, pool.extend [record]) := by
  rw [perform, admitOne, pool.admitBatch_of_le [record] room]
  rfl

/-- One more record is refused where the pool is full, and the pool stays as it is. -/
theorem perform_admitOne_of_lt (full : pool.available < 1) :
    pool.perform (.admitOne record) =
      (.refused (.capacityExceeded pool.capacity 1 pool.available), pool) := by
  rw [perform, admitOne, pool.admitBatch_of_lt [record] full]
  rfl

/-- A drain hands out what a look at the pool shows, and leaves what stands behind it. -/
theorem drain_eq (limit : Nat) : pool.drain limit = (pool.peek limit,
    { pool with entries := pool.entries.drop limit, drainedTotal :=
      pool.drainedTotal + min limit pool.size }) := by
  have handed : pool.entries.take (min limit pool.size) = pool.peek limit :=
    List.take_eq_take_min.symm
  have rest : pool.entries.drop (min limit pool.size) = pool.entries.drop limit := by
    rcases Nat.le_total limit pool.size with few | many
    · rw [Nat.min_eq_left few]
    · rw [Nat.min_eq_right many, size, List.drop_length, List.drop_of_length_le many]
  rw [drain, List.splitAt_eq, handed, rest]

end Perform

/-- The numbers of the range that a batch was given, beside its records, are
the entries that it was given. -/
theorem zipWith_numbers (first : Nat) (records : List Record) :
    List.zipWith PoolEntry.mk (SequenceRange.numbers ⟨first, first + records.length⟩) records
      = number first records := by
  have count : first + records.length - first = records.length := Nat.add_sub_cancel_left _ _
  rw [SequenceRange.numbers, number, List.zipIdx_eq_zip_range', List.map_zip_eq_zipWith,
    List.zipWith_comm, count]
  rfl

/-- What events did with records, from the pool that the first call met to the
pool that the last one left. -/
structure Moves (start : Pool) (events : List (Event Caller)) (final : Pool) : Prop where
  capacity : final.capacity = start.capacity
  entries : start.entries ++ events.flatMap Event.admitted
    = events.flatMap Event.removed ++ final.entries
  numbers : (events.flatMap Event.admitted).map PoolEntry.sequence
    = List.range' start.nextSequence (events.flatMap Event.admitted).length
  nextSequence : final.nextSequence = start.nextSequence + (events.flatMap Event.admitted).length
  admittedTotal : final.admittedTotal = start.admittedTotal + (events.flatMap Event.admitted).length
  drainedTotal : final.drainedTotal = start.drainedTotal + (events.flatMap Event.drained).length
  removed : (events.flatMap Event.removed).length
    = (events.flatMap Event.drained).length + (events.map Event.dropped).sum
  bounded : start.size ≤ start.capacity → final.size ≤ final.capacity

namespace Moves

variable {start middle final : Pool} {first second : List (Event Caller)} {event : Event Caller}

/-- No events move no pool, so every run begins with this. -/
theorem refl (pool : Pool) : Moves pool ([] : List (Event Caller)) pool where
  capacity := rfl
  entries := by simp
  numbers := rfl
  nextSequence := rfl
  admittedTotal := rfl
  drainedTotal := rfl
  removed := rfl
  bounded := id

/-- Runs that follow one another are one run. Every account is a sum or a
list, and these are joined. -/
theorem trans (before : Moves start first middle) (behind : Moves middle second final) :
    Moves start (first ++ second) final where
  capacity := behind.capacity.trans before.capacity
  entries := by
    rw [List.flatMap_append, List.flatMap_append, ← List.append_assoc, before.entries,
      List.append_assoc, behind.entries, List.append_assoc]
  numbers := by
    rw [List.flatMap_append, List.map_append, before.numbers, behind.numbers, before.nextSequence,
      List.length_append, List.range'_append_1]
  nextSequence := by
    rw [behind.nextSequence, before.nextSequence, List.flatMap_append, List.length_append,
      Nat.add_assoc]
  admittedTotal := by
    rw [behind.admittedTotal, before.admittedTotal, List.flatMap_append, List.length_append,
      Nat.add_assoc]
  drainedTotal := by
    rw [behind.drainedTotal, before.drainedTotal, List.flatMap_append, List.length_append,
      Nat.add_assoc]
  removed := by
    have left := before.removed
    have right := behind.removed
    simp only [List.flatMap_append, List.length_append, List.map_append, List.sum_append]
    omega
  bounded := fun fits => behind.bounded (before.bounded fits)

/-- A call that gives nothing and takes nothing moves the pool by an event without effect. -/
theorem of_kept (admitted : event.admitted = []) (drained : event.drained = [])
    (removed : event.removed = [])
    (dropped : event.dropped = 0) : Moves start [event] start where
  capacity := rfl
  entries := by simp [admitted, removed]
  numbers := by simp [admitted]
  nextSequence := by simp [admitted]
  admittedTotal := by simp [admitted]
  drainedTotal := by simp [drained]
  removed := by simp [removed, drained, dropped]
  bounded := id

/-- A call that gives numbers to records for which there is room moves the pool by these records. -/
theorem of_admitted {records : List Record} (room : records.length ≤ start.available)
    (admitted : event.admitted = number start.nextSequence records) (drained : event.drained = [])
    (removed : event.removed = []) (dropped : event.dropped = 0) :
    Moves start [event] (start.extend records) := by
  constructor
  case capacity => rfl
  case entries => simp [admitted, removed, extend]
  case numbers => simp [admitted, map_sequence_number]
  case nextSequence => simp [admitted, extend]
  case admittedTotal => simp [admitted, extend]
  case drainedTotal => simp [drained, extend]
  case removed => simp [removed, drained, dropped]
  case bounded =>
    intro fits
    simp only [available, size] at room fits
    simp only [size, extend, List.length_append, length_number]
    omega

end Moves

/-- What one call does, whichever it is: it keeps the pool, admits, drains or drops. This
is the step lemma for runs. -/
theorem moves_perform (pool : Pool) (turn : Turn Caller) :
    Moves pool [⟨turn, pool, (pool.perform turn.call).1⟩] (pool.perform turn.call).2 := by
  obtain ⟨caller, call⟩ := turn
  cases call with
  | admitOne record =>
    rcases Nat.lt_or_ge pool.available 1 with full | room
    · rw [perform_admitOne_of_lt pool record full]
      exact .of_kept rfl rfl rfl rfl
    · rw [perform_admitOne_of_le pool record room]
      exact .of_admitted room rfl rfl rfl rfl
  | admitBatch records =>
    rcases Nat.lt_or_ge pool.available records.length with exceeds | room
    · rw [perform_admitBatch_of_lt pool records exceeds]
      exact .of_kept rfl rfl rfl rfl
    · rw [perform_admitBatch_of_le pool records room]
      exact .of_admitted room (zipWith_numbers pool.nextSequence records) rfl rfl rfl
  | drain limit =>
    rw [perform, drain_eq]
    constructor
    case bounded =>
      intro fits
      simp only [size, List.length_drop] at fits ⊢
      omega
    all_goals simp [Event.admitted, Event.removed, Event.drained, Event.dropped, peek, size]
  | clear =>
    constructor
    case bounded =>
      intro _
      exact Nat.zero_le _
    all_goals simp [Event.admitted, Event.removed, Event.drained,
      Event.dropped, perform, clear, snapshot, size]
  | peek | snapshot | get | contains | stats => exact .of_kept rfl rfl rfl rfl

/-- What a run does. The induction is on the turns: the first is one call, the
others are the run that follows. -/
theorem moves_events (pool : Pool) (turns : List (Turn Caller)) :
    Moves pool (pool.events turns) (pool.after turns) := by
  induction turns generalizing pool with
  | nil => exact .refl pool
  | cons turn rest inductionHypothesis =>
    have first := moves_perform pool turn
    exact first.trans (inductionHypothesis (pool.perform turn.call).2)

/-- An event of a run holds the reply of the pool that its call met, and all of
these pools have one capacity. -/
theorem of_mem_events {pool : Pool} {turns : List (Turn Caller)} {event : Event Caller}
    (member : event ∈ pool.events turns) :
    event.reply = (event.before.perform event.call).1 ∧ event.before.capacity = pool.capacity := by
  induction turns generalizing pool with
  | nil => cases member
  | cons turn rest inductionHypothesis =>
    rcases List.mem_cons.mp member with rfl | later
    · exact ⟨rfl, rfl⟩
    · obtain ⟨reply, capacity⟩ := inductionHypothesis later
      exact ⟨reply, capacity.trans (moves_perform pool turn).capacity⟩

/-- A new pool is empty and its first number is one, whatever its capacity. -/
theorem create_of_pos (capacity : Nat) (positive : 0 < capacity) :
    create capacity = .ok ⟨capacity, [], 1, 0, 0⟩ :=
  if_neg (Nat.ne_of_gt positive)

/-- The numbers and counters of a pool are in step with what the events of its run told. -/
structure Accounts (capacity : Nat) (events : List (Event Caller)) (pool : Pool) : Prop where
  /-- The capacity is never exceeded, so the free slots are what is left of it. -/
  bounded : pool.size ≤ capacity
  free : pool.stats.available + pool.stats.size = capacity
  /-- What waits has the last numbers that were given, without a gap. -/
  held : pool.size < pool.nextSequence ∧
    pool.entries.map PoolEntry.sequence = List.range' (pool.nextSequence - pool.size) pool.size
  /-- The numbers that were given in the whole run are those from one, so none is given twice. -/
  given : (events.flatMap Event.admitted).map PoolEntry.sequence = List.range' 1 pool.admittedTotal
  nextSequence : pool.admittedTotal = pool.nextSequence - 1
  drainedTotal : pool.drainedTotal = (events.flatMap Event.drained).length
  balance : pool.admittedTotal = pool.drainedTotal + (events.map Event.dropped).sum + pool.size
  /-- No counter passes 64 bits before that many records were admitted. -/
  fits : pool.admittedTotal < UInt64.size - 1 →
    pool.nextSequence < UInt64.size ∧ pool.drainedTotal < UInt64.size

/-- A pool that began empty is in step with the events of its run. Lengths and numbers are counted
on both sides of the moves. -/
theorem accounts_of_moves {capacity : Nat} {events : List (Event Caller)} {pool : Pool}
    (moves : Moves ⟨capacity, [], 1, 0, 0⟩ events pool) : Accounts capacity events pool := by
  obtain ⟨same, entries, numbers, next, admitted, drained, removed, bounded⟩ := moves
  have within := bounded (Nat.zero_le _)
  have total := congrArg List.length entries
  dsimp only at same entries numbers next admitted drained
  rw [List.nil_append, List.length_append] at total
  rw [Nat.zero_add] at admitted drained
  have size : pool.size = pool.entries.length := rfl
  rw [same] at within
  constructor
  case bounded => exact within
  case free =>
    simp only [stats, available, same]
    omega
  case held =>
    refine ⟨by omega, ?_⟩
    -- The numbers of the run are those of what was removed and of what waits.
    rw [List.nil_append] at entries
    rw [entries, List.map_append] at numbers
    have behind := congrArg (List.drop (events.flatMap Event.removed).length) numbers
    rw [List.drop_left' (List.length_map _), List.drop_range', ← entries, total] at behind
    have first : pool.nextSequence - pool.size
      = 1 + (events.flatMap Event.removed).length := by omega
    rw [behind, first]
    congr 1 <;> omega
  case given => rw [numbers, admitted]
  case nextSequence => omega
  case drainedTotal => exact drained
  case balance => omega
  case fits =>
    simp only [UInt64.size]
    omega

/-- A pool of any capacity from one is created, and after any turns its numbers and
counters are in step. Each turn moves the pool by one event, and the accounts are read
off any chain of such moves. -/
theorem create_accounts (Caller : Type) (capacity : Nat) (positive : 0 < capacity) :
    ∃ pool, create capacity = .ok pool ∧ ∀ turns : List (Turn Caller),
      Accounts capacity (pool.events turns) (pool.after turns) := by
  refine ⟨_, create_of_pos capacity positive, ?_⟩
  intro turns
  exact accounts_of_moves (moves_events _ turns)

/-- A record that holds nothing but the required fields. -/
def leastRecord : Record where
  row :=
    [("entity_id", .text "e1"), ("event_type", .text "create"), ("timestamp", .number (.natural 1))]
  passes := by decide

/-- Two callers: a batch that does not fit into two slots, one that does, a drain,
a clear and a single record. -/
def crossedTurns : List (Turn Bool) :=
  [⟨true, .admitBatch (List.replicate 3 leastRecord)⟩,
    ⟨false, .admitBatch (List.replicate 2 leastRecord)⟩,
    ⟨true, .drain 1⟩, ⟨false, .clear⟩, ⟨true, .admitOne leastRecord⟩]

/-- Three numbers are given in all: the first is drained, the second cleared, the third waits. -/
theorem create_accounts_crossed : ∃ pool, create 2 = .ok pool ∧
    Accounts 2 (pool.events crossedTurns) (pool.after crossedTurns) ∧
      (pool.after crossedTurns).stats = ⟨1, 2, 1, 3, 1⟩ ∧
      (pool.after crossedTurns).nextSequence = 4 := by
  obtain ⟨pool, created, accounts⟩ := create_accounts Bool 2 (by decide)
  refine ⟨pool, created, accounts crossedTurns, ?_⟩
  cases created
  exact ⟨rfl, rfl⟩

/-- A refusal tells the capacity, how many records were offered and how many slots were free, and
leaves the pool as it was. -/
def Event.Refuses (event : Event Caller) (capacity requested : Nat) : Prop :=
  event.reply = .refused (.capacityExceeded capacity requested (capacity - event.before.size)) ∧
    (event.before.perform event.call).2 = event.before

/-- A pool is a queue over a run. -/
structure Queues (capacity : Nat) (events : List (Event Caller)) (pool : Pool) : Prop where
  /-- What was removed, in order, and then what waits, is what was admitted, in order. -/
  conserved : events.flatMap Event.removed ++ pool.snapshot = events.flatMap Event.admitted
  /-- A batch is refused exactly if it exceeds the free slots. Otherwise it is
  given a number for each record. -/
  batches : ∀ event ∈ events, ∀ records, event.call = .admitBatch records →
    if capacity - event.before.size < records.length then event.Refuses capacity records.length
    else ∃ range, event.reply = .range range ∧ range.past = range.first + records.length
  singles : ∀ event ∈ events, ∀ record, event.call = .admitOne record →
    if capacity - event.before.size < 1 then event.Refuses capacity 1
    else ∃ number, event.reply = .sequence number
  /-- A drain hands out what a look at the pool would have shown just before. -/
  drains : ∀ event ∈ events, ∀ limit, event.call = .drain limit →
    event.reply = (event.before.perform (.peek limit)).1
  /-- A drain that follows another at once hands out the rest of what one drain would have, and
  leaves the pool that it would have left. -/
  halves : ∀ first second,
    (pool.drain first).1 ++ ((pool.drain first).2.drain second).1
      = (pool.drain (first + second)).1 ∧
      ((pool.drain first).2.drain second).2 = (pool.drain (first + second)).2

/-- Two drains are one drain of both limits, so it does not matter how a drain is cut. -/
theorem drain_drain (pool : Pool) (first second : Nat) :
    (pool.drain first).1 ++ ((pool.drain first).2.drain second).1
      = (pool.drain (first + second)).1 ∧
      ((pool.drain first).2.drain second).2 = (pool.drain (first + second)).2 := by
  rw [drain_eq, drain_eq, drain_eq]
  constructor
  · exact List.take_add.symm
  · have total : pool.drainedTotal + min first pool.size + min second (pool.size - first)
        = pool.drainedTotal + min (first + second) pool.size := by omega
    simp only [size, List.length_drop, List.drop_drop] at total ⊢
    rw [total]

/-- An event of a run whose call has no room is a refusal, with the room that there was. -/
theorem Event.refuses_of_perform {event : Event Caller} {capacity requested : Nat}
    (reply : event.reply = (event.before.perform event.call).1)
    (same : event.before.capacity = capacity)
    (refused : event.before.perform event.call
      = (.refused (.capacityExceeded event.before.capacity requested event.before.available),
        event.before)) :
    event.Refuses capacity requested := by
  rw [refused, available, same] at reply
  refine ⟨reply, ?_⟩
  rw [refused]

/-- A pool of any capacity from one is created, and over any turns it is a queue, as the replies to
the turns show. That entries leave in the order in which they came is kept by every move; what a
single turn gives depends on the pool before it alone. -/
theorem create_queues (Caller : Type) (capacity : Nat) (positive : 0 < capacity) :
    ∃ pool, create capacity = .ok pool ∧ ∀ turns : List (Turn Caller),
      (pool.events turns).map (fun event => (event.toTurn, event.reply))
          = turns.zip (pool.performAll (turns.map Turn.call)).1 ∧
        Queues capacity (pool.events turns) (pool.after turns) := by
  refine ⟨_, create_of_pos capacity positive, ?_⟩
  intro turns
  refine ⟨map_events _ turns, ?_⟩
  constructor
  case conserved => exact (moves_events _ turns).entries.symm
  case batches =>
    intro event member records called
    obtain ⟨reply, (same : event.before.capacity = capacity)⟩ := of_mem_events member
    rw [← same]
    split
    · next exceeds =>
      refine Event.refuses_of_perform reply rfl ?_
      rw [called, perform_admitBatch_of_lt _ _ exceeds]
    · next room =>
      rw [called, perform_admitBatch_of_le _ _ (Nat.le_of_not_lt room)] at reply
      exact ⟨_, reply, rfl⟩
  case singles =>
    intro event member record called
    obtain ⟨reply, (same : event.before.capacity = capacity)⟩ := of_mem_events member
    rw [← same]
    split
    · next full =>
      refine Event.refuses_of_perform reply rfl ?_
      rw [called, perform_admitOne_of_lt _ _ full]
    · next room =>
      rw [called, perform_admitOne_of_le _ _ (Nat.le_of_not_lt room)] at reply
      exact ⟨_, reply⟩
  case drains =>
    intro event member limit called
    rw [(of_mem_events member).1, called, perform, drain_eq]
    rfl
  case halves => exact drain_drain _

/-- The refused batch gives nothing, the others are removed and kept in
the order of their numbers. -/
theorem create_queues_crossed : ∃ pool, create 2 = .ok pool ∧
    Queues 2 (pool.events crossedTurns) (pool.after crossedTurns) ∧
      ((pool.events crossedTurns).flatMap Event.removed).map PoolEntry.sequence = [1, 2] ∧
        (pool.after crossedTurns).snapshot.map PoolEntry.sequence = [3] := by
  obtain ⟨pool, created, queues⟩ := create_queues Bool 2 (by decide)
  refine ⟨pool, created, (queues crossedTurns).2, ?_⟩
  cases created
  exact ⟨rfl, rfl⟩

end Pool

end LedgerIntake
