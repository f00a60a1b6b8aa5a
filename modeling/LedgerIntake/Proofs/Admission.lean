import LedgerIntake.Admission
import LedgerIntake.Proofs.Batch.Refusal
import LedgerIntake.Proofs.Pool

/-!
# Admission of batches

A payload is answered in one of four ways. It is unreadable, or it is read and some rows are no
records, or all are records but there is not room for them, or all of them are admitted. The first
three leave the pool as it was. The list of faulty rows is characterized by what belongs to it and
by its order, not by how it is made.
-/

namespace LedgerIntake

namespace Record

/-- A row with a fault has no record, and the fault tells why. -/
theorem ofRow_eq_error_iff (row : Batch.Row) (cause : RecordFault) :
    ofRow row = .error cause ↔ fault? row = some cause := by
  unfold ofRow
  constructor
  · intro refused
    split at refused
    · contradiction
    · next found checked =>
      cases refused
      exact checked
  · intro checked
    split
    · next passes =>
      rw [passes] at checked
      contradiction
    · next found same =>
      rw [same] at checked
      cases checked
      rfl

/-- A row without a fault is the row of its record, which carries the proof that it passes. -/
theorem ofRow_of_passes (row : Batch.Row) (passes : fault? row = none) :
    ofRow row = .ok ⟨row, passes⟩ := by
  unfold ofRow
  split
  · rfl
  · next found checked =>
    rw [passes] at checked
    contradiction

end Record

namespace Examined

variable {rows : List Batch.Row}

/-- A list tells what is wrong with rows: every faulty row once, by
increasing index, with its own fault. -/
structure Lists (rows : List Batch.Row) (faults : List RowFault) : Prop where
  increasing : faults.Pairwise fun earlier later => earlier.row.toNat < later.row.toNat
  exact : ∀ fault, fault ∈ faults ↔ ∃ index row cause, rows[index]? = some row ∧
    Record.ofRow row = .error cause ∧ fault.row.toNat = index ∧
    fault.field = cause.field?.map RequiredField.name ∧ fault.reason = cause.message

/-- The index of a row fits into 64 bits, so a reply tells it as it is. -/
theorem toNat_row_rowFault (index : Nat) (cause : RecordFault) (small : index < UInt64.size) :
    (rowFault index cause).row.toNat = index :=
  UInt64.toNat_ofNat_of_lt small

/-- What is listed is the fault of a row, under its index. Nothing else is listed,
and no faulty row is left out. -/
theorem mem_rowFaults (fault : RowFault) :
    fault ∈ rowFaults rows ↔
      ∃ index row cause, rows[index]? = some row ∧ Record.fault? row = some cause ∧
        fault = rowFault index cause := by
  simp only [rowFaults, List.mem_filterMap, Option.map_eq_some_iff, Prod.exists]
  constructor
  · rintro ⟨row, index, member, cause, found, rfl⟩
    exact ⟨index, row, cause, List.mem_zipIdx_iff_getElem?.mp member, found, rfl⟩
  · rintro ⟨index, row, cause, placed, found, rfl⟩
    exact ⟨row, index, List.mem_zipIdx_iff_getElem?.mpr placed, cause, found, rfl⟩

/-- The rows of a batch are so few that their indices fit into 64 bits. Wherever rows were read from
a payload, their faults are listed. -/
theorem rowFaults_lists (few : rows.length ≤ Batch.rowLimit) : Lists rows (rowFaults rows) where
  increasing := by
    have numbered : rows.zipIdx.Pairwise fun earlier later => earlier.2 < later.2 := by
      have ascending : (rows.zipIdx.map Prod.snd).Pairwise (· < ·) := by
        rw [List.zipIdx_map_snd]
        exact List.pairwise_lt_range'
      exact List.pairwise_map.mp ascending
    refine List.pairwise_filterMap.mpr (numbered.imp_of_mem ?_)
    rintro ⟨row, index⟩ ⟨other, later⟩ among _ before fault found fault' found'
    obtain ⟨cause, -, rfl⟩ := Option.map_eq_some_iff.mp found
    obtain ⟨cause', -, rfl⟩ := Option.map_eq_some_iff.mp found'
    have inside : later < rows.length := List.snd_lt_of_mem_zipIdx ‹_›
    have small : later < UInt64.size := by
      simp only [Batch.rowLimit] at few
      simp only [UInt64.size]
      omega
    dsimp only at before
    rw [toNat_row_rowFault index cause (Nat.lt_trans before small),
      toNat_row_rowFault later cause' small]
    exact before
  exact := by
    intro fault
    rw [mem_rowFaults]
    constructor
    · rintro ⟨index, row, cause, placed, found, rfl⟩
      have inside : index < rows.length := (List.getElem?_eq_some_iff.mp placed).1
      have small : index < UInt64.size := by
        simp only [Batch.rowLimit] at few
        simp only [UInt64.size]
        omega
      exact ⟨index, row, cause, placed, (Record.ofRow_eq_error_iff row cause).mpr found,
        toNat_row_rowFault index cause small, rfl, rfl⟩
    · rintro ⟨index, row, cause, placed, refused, number, field, reason⟩
      refine ⟨index, row, cause, placed, (Record.ofRow_eq_error_iff row cause).mp refused, ?_⟩
      have same : UInt64.ofNat index = fault.row := by
        rw [← number]
        exact UInt64.ofNat_toNat
      rw [rowFault, same, ← field, ← reason]

/-- There is nothing to list if and only if every row is a record. -/
theorem rowFaults_eq_nil_iff :
    rowFaults rows = [] ↔ ∀ row ∈ rows, Record.fault? row = none := by
  constructor
  · intro empty row member
    obtain ⟨index, inside, rfl⟩ := List.mem_iff_getElem.mp member
    cases found : Record.fault? rows[index] with
    | none => rfl
    | some cause =>
      have listed : rowFault index cause ∈ rowFaults rows :=
        (mem_rowFaults _).mpr ⟨index, _, cause, List.getElem?_eq_getElem inside, found, rfl⟩
      rw [empty] at listed
      contradiction
  · intro passing
    apply List.eq_nil_iff_forall_not_mem.mpr
    intro fault listed
    obtain ⟨index, row, cause, placed, found, -⟩ := (mem_rowFaults fault).mp listed
    have member : row ∈ rows := List.mem_of_getElem? placed
    rw [passing row member] at found
    contradiction

/-- If every row is a record, the records hold the rows in order. The induction is on the
rows, of which none is dropped. -/
theorem map_row_records (passing : ∀ row ∈ rows, Record.fault? row = none) :
    (records rows).map Record.row = rows := by
  induction rows with
  | nil => rfl
  | cons row rest inductionHypothesis =>
    have passes : Record.fault? row = none := passing row List.mem_cons_self
    have others : ∀ other ∈ rest, Record.fault? other = none :=
      fun other member => passing other (List.mem_cons_of_mem row member)
    have first : (Record.ofRow row).toOption = some ⟨row, passes⟩ := by
      rw [Record.ofRow_of_passes row passes]
      rfl
    have front : records (row :: rest) = ⟨row, passes⟩ :: records rest := by
      simp only [records, List.filterMap_cons, first]
    rw [front, List.map_cons, inductionHypothesis others]

/-- Where every row passes, there is a record for each of them, so the pool counts rows. -/
theorem length_records (passing : ∀ row ∈ rows, Record.fault? row = none) :
    (records rows).length = rows.length := by
  have same := congrArg List.length (map_row_records passing)
  rwa [List.length_map] at same

/-- Rows with a fault among them are turned down with the list of their faults. -/
theorem ofRows_of_fault (wrong : ¬∀ row ∈ rows, Record.fault? row = none) :
    ofRows rows = .invalid rows.length (rowFaults rows) := by
  have listed : (rowFaults rows).isEmpty = false := by
    rw [List.isEmpty_eq_false_iff]
    intro empty
    exact wrong (rowFaults_eq_nil_iff.mp empty)
  simp only [ofRows, listed, Bool.false_eq_true, if_false]

/-- A table whose rows all pass the checks is found valid, with the
records of all its rows in order. -/
theorem ofRows_of_passes (passing : ∀ row ∈ rows, Record.fault? row = none) :
    ofRows rows = .valid (records rows) := by
  have none : rowFaults rows = [] := rowFaults_eq_nil_iff.mpr passing
  simp only [ofRows, none, List.isEmpty_nil, if_true]

/-- Records for which there is room are admitted, all of them behind what waits. -/
theorem offer_of_le [Diagnostics] (pool : Pool) (records : List Record)
    (room : records.length ≤ pool.available) :
    (valid records).offer pool = (.accepted, pool.extend records) := by
  simp only [offer, pool.admitBatch_of_le records room]

/-- More records than there is room for leave the pool as it is, and the reply tells how many there
were and what room there is. -/
theorem offer_of_lt [Diagnostics] (pool : Pool) (records : List Record)
    (exceeds : pool.available < records.length) :
    (valid records).offer pool =
      (.rejected ⟨.capacity,
        (PoolError.capacityExceeded pool.capacity records.length pool.available).message, []⟩,
        pool) := by
  simp only [offer, pool.admitBatch_of_lt records exceeds]

end Examined

/-- What a payload has to be answered, and what has to become of the pool. The four cases exclude
each other and leave no payload out. -/
structure Intake.Answers [Diagnostics] (pool : Pool) (payload : Bytes) (reply : Acknowledgment)
    (later : Pool) : Prop where
  /-- The text is the one of the error itself, with what the parser
  says of a cell that is no JSON. -/
  unreadable : ∀ cause, Batch.decode payload = .error cause →
    reply = .rejected ⟨.codec, cause.message, []⟩ ∧ later = pool
  /-- Whether there is room for the rows plays no part. -/
  invalid : ∀ table, Batch.decode payload = .ok table →
    (∃ row ∈ table.rows, ∃ cause, Record.ofRow row = .error cause) →
    ∃ faults, Examined.Lists table.rows faults ∧
      reply = .rejected ⟨.validation,
        faults.length.repr ++ " of " ++ table.rows.length.repr ++ " rows invalid", faults⟩ ∧
      later = pool
  crowded : ∀ table, Batch.decode payload = .ok table →
    (∀ row ∈ table.rows, ∃ record, Record.ofRow row = .ok record) →
    pool.capacity - pool.size < table.rows.length →
    reply = .rejected ⟨.capacity, (PoolError.capacityExceeded pool.capacity table.rows.length
      (pool.capacity - pool.size)).message, []⟩ ∧ later = pool
  admitted : ∀ table, Batch.decode payload = .ok table →
    (∀ row ∈ table.rows, ∃ record, Record.ofRow row = .ok record) →
    table.rows.length ≤ pool.capacity - pool.size →
    reply = .accepted ∧ ∃ entries, later.snapshot = pool.snapshot ++ entries ∧
      entries.map (fun entry => entry.record.row) = table.rows ∧
      entries.map PoolEntry.sequence = List.range' pool.nextSequence table.rows.length

/-- A row has a record if and only if it has no fault, so the check is
all that a record asks for. -/
theorem Record.exists_ofRow_iff (row : Batch.Row) :
    (∃ record, ofRow row = .ok record) ↔ fault? row = none := by
  constructor
  · rintro ⟨record, same⟩
    cases found : fault? row with
    | none => rfl
    | some cause =>
      rw [(ofRow_eq_error_iff row cause).mpr found] at same
      contradiction
  · intro passes
    exact ⟨_, ofRow_of_passes row passes⟩

/-- Every payload is answered as it has to be, whatever the pool holds. What is found of the payload
decides between the four cases, and the pool is asked only about a table whose rows all pass. -/
theorem Intake.handle_answers [Diagnostics] (intake : Intake) (payload : Bytes)
    (elapsed : Elapsed) :
    Answers intake.pool payload (intake.handle payload elapsed).1
      (intake.handle payload elapsed).2.pool := by
  have reply : (intake.handle payload elapsed).1
      = ((Examined.ofPayload payload).offer intake.pool).1 := rfl
  have later : (intake.handle payload elapsed).2.pool
      = ((Examined.ofPayload payload).offer intake.pool).2 := rfl
  rw [reply, later]
  have read (table : Batch.Table) (decoded : Batch.decode payload = .ok table) :
      Examined.ofPayload payload = Examined.ofRows table.rows := by
    rw [Examined.ofPayload, decoded]
  have passing (table : Batch.Table)
      (all : ∀ row ∈ table.rows, ∃ record, Record.ofRow row = .ok record) :
      ∀ row ∈ table.rows, Record.fault? row = none :=
    fun row member => (Record.exists_ofRow_iff row).mp (all row member)
  constructor
  case unreadable =>
    intro cause refused
    have examined : Examined.ofPayload payload = .unreadable cause := by
      rw [Examined.ofPayload, refused]
    rw [examined]
    exact ⟨rfl, rfl⟩
  case invalid =>
    rintro table decoded ⟨row, member, cause, refused⟩
    have wrong : ¬∀ row ∈ table.rows, Record.fault? row = none := by
      intro all
      rw [Record.ofRow_eq_error_iff, all row member] at refused
      contradiction
    have few := Batch.length_rows_of_decode payload table decoded
    rw [read table decoded, Examined.ofRows_of_fault wrong]
    exact ⟨_, Examined.rowFaults_lists few, rfl, rfl⟩
  case crowded =>
    intro table decoded all exceeds
    have count := Examined.length_records (passing table all)
    rw [read table decoded, Examined.ofRows_of_passes (passing table all),
      Examined.offer_of_lt _ _ (count ▸ exceeds), count]
    exact ⟨rfl, rfl⟩
  case admitted =>
    intro table decoded all room
    have count := Examined.length_records (passing table all)
    rw [read table decoded, Examined.ofRows_of_passes (passing table all),
      Examined.offer_of_le _ _ (count ▸ room)]
    refine ⟨rfl, Pool.number intake.pool.nextSequence (Examined.records table.rows), rfl, ?_, ?_⟩
    · have held := Pool.map_record_number intake.pool.nextSequence (Examined.records table.rows)
      calc (Pool.number intake.pool.nextSequence (Examined.records table.rows)).map
            (fun entry => entry.record.row)
          = ((Pool.number intake.pool.nextSequence (Examined.records table.rows)).map
              PoolEntry.record).map Record.row := by rw [List.map_map]; rfl
        _ = table.rows := by rw [held, Examined.map_row_records (passing table all)]
    · rw [Pool.map_sequence_number, count]

end LedgerIntake
