import LedgerIntake.Acknowledgment
import LedgerIntake.Batch.Reader
import LedgerIntake.Metrics
import LedgerIntake.Pool

/-!
# Admission

A payload is examined first, without regard to the pool: it is unreadable, or some of its rows are
no records, or all of them are. Only then is the pool asked, in one call, for all records together.
So a batch is admitted whole or not at all, and the acknowledgment tells which.
-/

namespace LedgerIntake

/-- What a payload turned out to be. -/
inductive Examined where
  /-- No batch. -/
  | unreadable (cause : Batch.BatchError)
  /-- A batch of some rows, not all of them records. -/
  | invalid (rows : Nat) (faults : List RowFault)
  /-- A batch of records. -/
  | valid (records : List Record)

namespace Examined

/-- What is wrong with the row at an index. -/
def rowFault (index : Nat) (fault : RecordFault) : RowFault :=
  ⟨UInt64.ofNat index, fault.field?.map RequiredField.name, fault.message⟩

/-- The faulty rows, by increasing index. -/
def rowFaults (rows : List Batch.Row) : List RowFault :=
  rows.zipIdx.filterMap fun (row, index) => (Record.fault? row).map (rowFault index)

/-- The rows that are records, in order. -/
def records (rows : List Batch.Row) : List Record :=
  rows.filterMap fun row => (Record.ofRow row).toOption

/-- Examines rows. -/
def ofRows (rows : List Batch.Row) : Examined :=
  let faults := rowFaults rows
  if faults.isEmpty then .valid (records rows) else .invalid rows.length faults

/-- Examines a payload. -/
def ofPayload (payload : Bytes) : Examined :=
  match Batch.decode payload with
  | .ok table => ofRows table.rows
  | .error cause => .unreadable cause

/-- The number of rows, if they could be read. -/
def rowCount? : Examined → Option Nat
  | .unreadable _ => none
  | .invalid rows _ => some rows
  | .valid records => some records.length

/-- Offers the records to the pool and acknowledges what became of them. -/
def offer [Diagnostics] (examined : Examined) (pool : Pool) : Acknowledgment × Pool :=
  match examined with
  | .unreadable cause => (.rejected ⟨.codec, cause.message, []⟩, pool)
  | .invalid rows faults =>
    (.rejected ⟨.validation, faults.length.repr ++ " of " ++ rows.repr ++ " rows invalid", faults⟩,
      pool)
  | .valid records =>
    match pool.admitBatch records with
    | .ok (_, pool) => (.accepted, pool)
    | .error refusal => (.rejected ⟨.capacity, refusal.message, []⟩, pool)

end Examined

namespace Metrics

/-- Counts an acknowledgment by what it says. -/
def countOutcome (metrics : Metrics) : Acknowledgment → Metrics
  | .accepted => metrics.increment .accepted
  | .rejected rejection => metrics.increment (.rejected rejection.kind)

/-- Counts the rows of a batch that could be read: all of them admitted,
or all of them turned down. -/
def countRows (metrics : Metrics) (rows : Nat) (reply : Acknowledgment) : Metrics :=
  let amount := UInt64.ofNat rows
  ((metrics.add amount .rows).observeSize (.ofNat rows)).add amount
    (if reply = .accepted then .admittedRows else .refusedRows)

/-- Counts a payload, its rows if they could be read, its outcome, and the time it took. -/
def countBatch (metrics : Metrics) (rows : Option Nat) (reply : Acknowledgment)
    (elapsed : Elapsed) : Metrics :=
  let metrics := metrics.increment .batches
  let metrics := match rows with
    | some rows => metrics.countRows rows reply
    | none => metrics
  (metrics.countOutcome reply).observeLatency elapsed

end Metrics

/-- A pool and what is counted of the batches offered to it. -/
structure Intake where
  pool : Pool
  metrics : Metrics

namespace Intake

/-- Nothing admitted, nothing counted. -/
def create (capacity : Nat) : Except PoolError Intake :=
  (Pool.create capacity).map fun pool => ⟨pool, .fresh⟩

/-- Answers a payload, given the time that it takes. -/
def handle [Diagnostics] (intake : Intake) (payload : Bytes) (elapsed : Elapsed) :
    Acknowledgment × Intake :=
  let examined := Examined.ofPayload payload
  let (reply, pool) := examined.offer intake.pool
  (reply, ⟨pool, intake.metrics.countBatch examined.rowCount? reply elapsed⟩)

/-- Counts a rejection that concerns no batch. -/
def countRejection (intake : Intake) (kind : RejectionKind) : Intake :=
  { intake with metrics := intake.metrics.increment (.rejected kind) }

/-- The metrics and the size of the pool at this moment. -/
def snapshot (intake : Intake) : MetricsSnapshot :=
  ⟨intake.metrics, UInt64.ofNat intake.pool.size⟩

end Intake

end LedgerIntake
