import LedgerIntake.Hashing
import LedgerIntake.Proofs.Json.Values

/-!
# Hashing does not fail

Every number of a value is finite, since a number carries the proof of it, and a text that is
written into memory is written whole. So each step gives what the step before it asks for, and the
hash of a record, of many records and of a header is the one that is taken without any check. The
one fault that a caller can meet is that of a header that is none.
-/

namespace LedgerIntake

open Json

namespace Canonical

/-- No number is infinite, and each is one, since a float carries the proof that it is finite. -/
theorem isStray_eq_false (value : Number) : isStray value = false := by
  cases value with
  | natural | negative => rfl
  | float value finite => simp only [isStray, finite, Bool.not_true]

/-- No path leads to a number that is not finite. The induction is on the value: a number is finite,
and the items and members of a value are smaller. -/
theorem stray?_eq_none (value : Value) (path : List String) : stray? path value = none := by
  induction value using Value.induction generalizing path with
  | null | bool | text => rfl
  | number value => simp only [stray?, isStray_eq_false, Bool.false_eq_true, if_false]
  | array items finite =>
    have each (position : Nat) : strayItem? path position items = none := by
      induction items generalizing position with
      | nil => rfl
      | cons item rest inductionHypothesis =>
        obtain ⟨first, others⟩ := List.forall_mem_cons.mp finite
        rw [strayItem?, first, inductionHypothesis others, Option.or_none]
    exact each 0
  | object members finite =>
    rw [stray?]
    induction members with
    | nil => rfl
    | cons member rest inductionHypothesis =>
      obtain ⟨first, others⟩ := List.forall_mem_cons.mp finite
      rw [strayMember?, first, inductionHypothesis others, Option.or_none]

/-- Every value has its canonical bytes, so no path to a stray number is ever told. -/
theorem canonicalize_eq (value : Value) : canonicalize value = .ok (bytes value) := by
  rw [canonicalize, stray?_eq_none]
  rfl

end Canonical

namespace Hashing

/-- Every record has its hash, since only a stray number could keep it from being hashed. -/
theorem recordHash_eq (record : Value) : recordHash record = .ok (Canonical.hash record) := by
  have steps : recordHash record = (Canonical.canonicalize record).mapError .canonicalization >>=
      fun bytes => .ok (Digest.ofMessage bytes) := rfl
  rw [steps, Canonical.canonicalize_eq]
  rfl

/-- What is taken from each item without a fault is taken from all of them. -/
theorem mapM_eq_ok {α β : Type} {take : α → Except Fault β} {part : α → β}
    (takes : ∀ item, take item = .ok (part item)) (items : List α) :
    items.mapM take = .ok (items.map part) := by
  rw [funext takes]
  exact List.mapM_pure

/-- Each of many records has its hash, so no fault names a record by its position. -/
theorem batchHashes_eq (records : List Value) :
    batchHashes records = .ok (Merkle.hashes records) := by
  have takes (item : Value × Nat) :
      (recordHash item.1).mapError (Fault.ofItem item.2) = .ok (Canonical.hash item.1) := by
    rw [recordHash_eq]
    rfl
  have listed : (records.zipIdx.map fun item => Canonical.hash item.1) = Merkle.hashes records := by
    have firsts : records.zipIdx.map Prod.fst = records := List.zipIdx_map_fst 0 records
    rw [Merkle.hashes, ← congrArg (List.map Canonical.hash) firsts, List.map_map]
    rfl
  rw [batchHashes, mapM_eq_ok takes, listed]

/-- Records have their root, one digest for any number of them. -/
theorem merkleRoot_eq (records : List Value) :
    merkleRoot records = .ok (Merkle.rootOf records) := by
  rw [merkleRoot, mapM_eq_ok recordHash_eq]
  rfl

/-- A header has its hash, as its time is the only number that is checked. -/
theorem blockHash_eq (header : BlockHeader) : blockHash header = .ok header.hash := by
  rw [blockHash, Canonical.checkNumber, Canonical.isStray_eq_false]
  rfl

/-- A value has the hash of the header that it gives, and is told why it gives none. -/
theorem blockHashOf_eq (value : Value) :
    blockHashOf value = (BlockHeader.hashOf value).mapError .header := by
  rw [blockHashOf, BlockHeader.hashOf]
  cases BlockHeader.ofJson value with
  | error refusal => rfl
  | ok header => exact blockHash_eq header

end Hashing

end LedgerIntake
