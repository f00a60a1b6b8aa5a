import LedgerIntake.Pool

/-!
# Admission to the pool

Whether the pool admits records depends on their number alone. If it does, they stand behind the
entries that were there, in order and under consecutive numbers; if it does not, there is no new
pool.
-/

namespace LedgerIntake.Pool

/-- The pool after records were admitted to it. -/
def extend (pool : Pool) (records : List Record) : Pool where
  capacity := pool.capacity
  entries := pool.entries ++ number pool.nextSequence records
  nextSequence := pool.nextSequence + records.length
  admittedTotal := pool.admittedTotal + records.length
  drainedTotal := pool.drainedTotal

/-- Records for which there is room are admitted under the next numbers. -/
theorem admitBatch_of_le (pool : Pool) (records : List Record)
    (room : records.length ≤ pool.available) :
    pool.admitBatch records
      = .ok (⟨pool.nextSequence, pool.nextSequence + records.length⟩, pool.extend records) := by
  unfold admitBatch
  dsimp only
  rw [if_neg (Nat.not_lt.mpr room)]
  rfl

/-- More records than there is room for are refused, and the refusal tells what room there is. -/
theorem admitBatch_of_lt (pool : Pool) (records : List Record)
    (exceeds : pool.available < records.length) :
    pool.admitBatch records
      = .error (.capacityExceeded pool.capacity records.length pool.available) := by
  unfold admitBatch
  dsimp only
  rw [if_pos exceeds]

/-- Numbering leaves the records as they are and in order. -/
theorem map_record_number (first : Nat) (records : List Record) :
    (number first records).map PoolEntry.record = records := by
  rw [number, List.map_map]
  exact List.zipIdx_map_fst first records

/-- Numbering keeps how many records there are. -/
@[simp] theorem length_number (first : Nat) (records : List Record) :
    (number first records).length = records.length := by
  rw [← List.length_map PoolEntry.record, map_record_number]

/-- Records are numbered one after another from the first number, without a gap. -/
theorem map_sequence_number (first : Nat) (records : List Record) :
    (number first records).map PoolEntry.sequence = List.range' first records.length := by
  rw [number, List.map_map]
  exact List.zipIdx_map_snd first records

end LedgerIntake.Pool
