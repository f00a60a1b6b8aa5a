import LedgerIntake.Record

/-!
# The pool of admitted records

Admitted records wait in the pool under sequence numbers that count from one and are never given
twice. A batch is admitted whole or not at all. Every call is one step on the whole pool, so what
several callers do at the same time is some list of calls, and `perform` is all that such a list
needs.

Numbers and counters do not wrap here. A machine holds them in 64 bits, which is the same until `2 ^
64 - 1` records were admitted: none of them passes 64 bits before that. Nothing tells when a record
came, since no call asks for it or decides by it.
-/

namespace LedgerIntake

/-- A record in the pool, under its number. -/
structure PoolEntry where
  /-- It counts from one and is never given twice. -/
  sequence : Nat
  record : Record

/-- The records that wait, oldest first, and what the pool remembers of those that left. -/
structure Pool where
  /-- The greatest number of records that wait at one time. -/
  capacity : Nat
  entries : List PoolEntry
  /-- The number for the next record. -/
  nextSequence : Nat
  /-- How many records were ever admitted. -/
  admittedTotal : Nat
  /-- How many records were ever handed out by draining. -/
  drainedTotal : Nat

/-- Why the pool turned down a request. -/
inductive PoolError where
  /-- More records than there is room for. -/
  | capacityExceeded (capacity requested available : Nat)
  /-- A pool without room for any record was asked for. -/
  | zeroCapacity
deriving DecidableEq

/-- The wording of a refusal. -/
def PoolError.message : PoolError → String
  | .capacityExceeded capacity requested available =>
    "mempool capacity exceeded: " ++ requested.repr ++ " requested, " ++ available.repr ++ " of "
      ++ capacity.repr ++ " available"
  | .zeroCapacity => "mempool capacity must be at least 1"

/-- Consecutive numbers, from the first up to but without the last. -/
structure SequenceRange where
  first : Nat
  past : Nat
deriving DecidableEq

/-- The counts of a pool at one moment. -/
structure PoolStats where
  size : Nat
  capacity : Nat
  available : Nat
  admittedTotal : Nat
  drainedTotal : Nat
deriving DecidableEq

namespace Pool

/-- The capacity of a pool that is not told otherwise. -/
def defaultCapacity : Nat := 100000

/-- An empty pool. -/
def create (capacity : Nat) : Except PoolError Pool :=
  if capacity = 0 then .error .zeroCapacity else .ok ⟨capacity, [], 1, 0, 0⟩

/-- How many records wait. -/
def size (pool : Pool) : Nat := pool.entries.length

/-- How many more records there is room for. -/
def available (pool : Pool) : Nat := pool.capacity - pool.size

/-- Whether no record waits. -/
def isEmpty (pool : Pool) : Bool := pool.entries.isEmpty

/-- Whether there is room for no further record. -/
def isFull (pool : Pool) : Bool := decide (pool.capacity ≤ pool.size)

/-- Entries for records, under consecutive numbers. -/
def number (first : Nat) (records : List Record) : List PoolEntry :=
  (records.zipIdx first).map fun (record, sequence) => ⟨sequence, record⟩

/-- Admits all records under the next numbers, or refuses all of them if
there is not room for each. -/
def admitBatch (pool : Pool) (records : List Record) : Except PoolError (SequenceRange × Pool) :=
  let requested := records.length
  if pool.available < requested then
    .error (.capacityExceeded pool.capacity requested pool.available)
  else
    let past := pool.nextSequence + requested
    .ok (⟨pool.nextSequence, past⟩,
      { pool with
        entries := pool.entries ++ number pool.nextSequence records
        nextSequence := past
        admittedTotal := pool.admittedTotal + requested })

/-- Admits one record and tells its number. -/
def admitOne (pool : Pool) (record : Record) : Except PoolError (Nat × Pool) :=
  (pool.admitBatch [record]).map fun (range, pool) => (range.first, pool)

/-- The oldest records, at most as many as asked for. -/
def peek (pool : Pool) (limit : Nat) : List PoolEntry := pool.entries.take limit

/-- Hands out the oldest records, at most as many as asked for. -/
def drain (pool : Pool) (limit : Nat) : List PoolEntry × Pool :=
  let count := min limit pool.size
  let (oldest, rest) := pool.entries.splitAt count
  (oldest, { pool with entries := rest, drainedTotal := pool.drainedTotal + count })

/-- Everything that waits. -/
def snapshot (pool : Pool) : List PoolEntry := pool.entries

/-- The place of a number among entries that stand in the order of their numbers. The entry in the
middle is looked at first, and then what lies on the side of the number. -/
def search (entries : List PoolEntry) (sequence : Nat) : Option Nat :=
  match split : entries.drop (entries.length / 2) with
  | [] => none
  | middle :: behind =>
    if sequence < middle.sequence then search (entries.take (entries.length / 2)) sequence
    else if middle.sequence < sequence then
      (search behind sequence).map fun place => entries.length / 2 + 1 + place
    else some (entries.length / 2)
termination_by entries.length
decreasing_by
  all_goals
    have lengths := congrArg List.length split
    simp only [List.length_drop, List.length_cons, List.length_take] at lengths ⊢
    omega

/-- The entry under a number. -/
def get? (pool : Pool) (sequence : Nat) : Option PoolEntry :=
  (search pool.entries sequence).bind fun place => pool.entries[place]?

/-- Whether a record waits under a number. -/
def contains (pool : Pool) (sequence : Nat) : Bool := (search pool.entries sequence).isSome

/-- Drops everything that waits and tells how many records that were. Numbers
go on from where they were. -/
def clear (pool : Pool) : Nat × Pool := (pool.size, { pool with entries := [] })

/-- The counts at this moment. -/
def stats (pool : Pool) : PoolStats :=
  ⟨pool.size, pool.capacity, pool.available, pool.admittedTotal, pool.drainedTotal⟩

/-- What can be asked of a pool. -/
inductive Call where
  | admitOne (record : Record)
  | admitBatch (records : List Record)
  | drain (limit : Nat)
  | peek (limit : Nat)
  | snapshot
  | get (sequence : Nat)
  | contains (sequence : Nat)
  | clear
  | stats

/-- What a pool answers. -/
inductive Reply where
  | sequence (number : Nat)
  | range (numbers : SequenceRange)
  | refused (error : PoolError)
  | entries (held : List PoolEntry)
  | entry (found : Option PoolEntry)
  | present (held : Bool)
  | count (dropped : Nat)
  | stats (counts : PoolStats)

/-- Answers one call. -/
def perform (pool : Pool) : Call → Reply × Pool
  | .admitOne record =>
    match pool.admitOne record with
    | .ok (number, pool) => (.sequence number, pool)
    | .error refusal => (.refused refusal, pool)
  | .admitBatch records =>
    match pool.admitBatch records with
    | .ok (numbers, pool) => (.range numbers, pool)
    | .error refusal => (.refused refusal, pool)
  | .drain limit =>
    let (held, pool) := pool.drain limit
    (.entries held, pool)
  | .peek limit => (.entries (pool.peek limit), pool)
  | .snapshot => (.entries pool.snapshot, pool)
  | .get sequence => (.entry (pool.get? sequence), pool)
  | .contains sequence => (.present (pool.contains sequence), pool)
  | .clear =>
    let (dropped, pool) := pool.clear
    (.count dropped, pool)
  | .stats => (.stats pool.stats, pool)

/-- Answers calls in turn. -/
def performAll (pool : Pool) : List Call → List Reply × Pool
  | [] => ([], pool)
  | call :: rest =>
    let (reply, pool) := pool.perform call
    let (replies, pool) := performAll pool rest
    (reply :: replies, pool)

end Pool

end LedgerIntake
