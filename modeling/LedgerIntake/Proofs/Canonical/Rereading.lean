import LedgerIntake.Merkle
import LedgerIntake.Proofs.Canonical

/-!
# Canonical text that is read again

Canonical text is JSON text, and every value that does not nest too deep is read from it: with its
strings as they were, its members in order, and its integers. Only a binary64 that no integer
replaces may be read as another one, since the reader may round more than once. So a value that is
exchanged in canonical form keeps its canonical bytes, and with them its hash and its place in every
root, exactly if the reader gives each such number for the number's own text.
-/

namespace LedgerIntake.Canonical

open Json

/-- Canonical text writes no number in full, so nothing about full digits is asked of it. -/
theorem short_layout : layout.Short := by
  intro leading inFull
  cases inFull

/-- The canonical text of each number that no integer replaces is read as that number. -/
def Stable (value : Value) : Prop :=
  ∀ number ∈ value.numbers, ∀ x finite, settle number = .float x finite →
    Number.read? (layout.write x).toList = some (.float x finite)

/-- A settled number is read as itself exactly if it is an integer, or its text is read as it. -/
theorem rereadIn_settle_iff (number : Number) :
    (settle number).rereadIn layout = settle number ↔
      ∀ x finite, settle number = .float x finite →
        Number.read? (layout.write x).toList = some (.float x finite) := by
  have text := Number.read?_number short_layout style_writes
  constructor
  · intro same x finite settled
    rw [settled] at same
    exact (text (.float x finite)).trans (congrArg some same)
  · intro floats
    cases settled : settle number with
    | natural value => exact Number.rereadIn_natural layout value
    | negative below => exact Number.rereadIn_negative layout below
    | float x finite =>
      exact Option.some.inj ((text (.float x finite)).symm.trans (floats x finite settled))

section Values

variable {value : Value} (wellFormed : value.WellFormed)

include wellFormed

/-- Canonical bytes are read as the value with each number settled and then read back. -/
theorem readBytes?_bytes (shallow : value.depth ≤ greatestDepth) :
    readBytes? (bytes value) = some (value.revalue (Number.rereadIn layout ∘ settle)) := by
  have normal : (value.revalue settle).depth ≤ greatestDepth := by
    rw [depth_revalue wellFormed]
    exact shallow
  rw [bytes, text, normalize_fst wellFormed,
    style_writes.readBytes legible_style short_layout _ normal, revalue_revalue wellFormed]

/-- Canonical bytes of a value that nests too deep are not read, since writing keeps the depth. -/
theorem depth_le_of_readBytes?_bytes {back : Value} (read : readBytes? (bytes value) = some back) :
    value.depth ≤ greatestDepth := by
  rw [bytes, text, normalize_fst wellFormed] at read
  have shallow := (style_writes.readable legible_style).depth_le_of_readBytes? read
  rwa [depth_revalue wellFormed] at shallow

/-- Reading the numbers back changes the canonical bytes unless it changes none of them. -/
theorem bytes_rereadIn_iff :
    bytes (value.revalue (Number.rereadIn layout ∘ settle)) = bytes value ↔ Stable value := by
  rw [bytes_eq_bytes_iff (wellFormed_revalue wellFormed _) wellFormed, revalue_revalue wellFormed,
    revalue_eq_revalue_iff wellFormed, Stable]
  refine forall₂_congr fun number _ => ?_
  rw [← rereadIn_settle_iff, ← settle_rereadIn_iff short_layout, settle_settle]
  rfl

end Values

/-- Canonical bytes are read again exactly if the value does not nest too deep. What is
read has the same canonical bytes exactly if the value is stable, and it may then stand for
the value in every list of records. Reading text back changes nothing but numbers, each of
them as its own text is read. -/
theorem readBytes?_bytes_iff (value : Value) (wellFormed : value.WellFormed) :
    ((∃ back, readBytes? (bytes value) = some back) ↔ value.depth ≤ greatestDepth) ∧
      ∀ back, readBytes? (bytes value) = some back → (bytes back = bytes value ↔ Stable value) ∧
        (Stable value → hash back = hash value ∧ ∀ before after,
          Merkle.rootOf (before ++ back :: after) = Merkle.rootOf (before ++ value :: after)) := by
  refine ⟨⟨?_, fun shallow => ⟨_, readBytes?_bytes wellFormed shallow⟩⟩, ?_⟩
  · rintro ⟨back, read⟩
    exact depth_le_of_readBytes?_bytes wellFormed read
  · intro back read
    have known := readBytes?_bytes wellFormed (depth_le_of_readBytes?_bytes wellFormed read)
    rw [read] at known
    cases known
    have same := bytes_rereadIn_iff wellFormed
    refine ⟨same, fun stable => ?_⟩
    have hashes : hash (value.revalue (Number.rereadIn layout ∘ settle)) = hash value :=
      congrArg Digest.ofMessage (same.mpr stable)
    refine ⟨hashes, fun before after => ?_⟩
    rw [Merkle.rootOf, Merkle.rootOf, Merkle.hashes, Merkle.hashes, List.map_append,
      List.map_append, List.map_cons, List.map_cons, hashes]

/-- A half under a key that is escaped and a time that is settled are read
with the same canonical bytes. -/
theorem readBytes?_bytes_half : ∃ back,
    readBytes? (bytes (.object [("time", .number (.float ⟨0x41d954fc40000000⟩ (by decide))),
      ("é", .number (.float ⟨0x3fe0000000000000⟩ (by decide)))])) = some back ∧
    bytes back = bytes (.object [("time", .number (.float ⟨0x41d954fc40000000⟩ (by decide))),
      ("é", .number (.float ⟨0x3fe0000000000000⟩ (by decide)))]) := by
  have wellFormed : (Value.object [("time", .number (.float ⟨0x41d954fc40000000⟩ (by decide))),
      ("é", .number (.float ⟨0x3fe0000000000000⟩ (by decide)))]).WellFormed := by
    refine ⟨?_, trivial, trivial, trivial⟩
    simp only [Members.Sorted, List.pairwise_cons, List.forall_mem_cons]
    decide
  have replaced : settle (.float ⟨0x41d954fc40000000⟩ (by decide))
    = .natural 1700000000 := by decide
  have kept : settle (.float ⟨0x3fe0000000000000⟩ (by decide))
    = .float ⟨0x3fe0000000000000⟩ (by decide) := by
    decide
  have read : Number.read? (layout.write ⟨0x3fe0000000000000⟩).toList
      = some (.float ⟨0x3fe0000000000000⟩ (by decide)) := by decide +kernel
  obtain ⟨readable, outcome⟩ := readBytes?_bytes_iff _ wellFormed
  obtain ⟨back, found⟩ := readable.mpr (by decide)
  refine ⟨back, found, (outcome back found).1.mpr ?_⟩
  simp only [Stable, Value.numbers, numbersOfMembers, List.singleton_append, List.append_nil,
    List.forall_mem_cons, List.not_mem_nil, false_imp_iff, implies_true, and_true]
  refine ⟨fun x finite same => ?_, fun x finite same => ?_⟩
  · rw [replaced] at same
    cases same
  · rw [kept] at same
    cases same
    exact read

/-- The number that the text `5e32` is read as has a canonical text that is read as another one. -/
theorem bytes_unstable : ∃ number back, Number.read? "5e32".toList = some number ∧
    readBytes? (bytes (.number number)) = some back ∧ bytes back ≠ bytes (.number number) := by
  have read : Number.read? "5e32".toList = some (.float ⟨0x46b8a6e32246c99d⟩ (by decide)) := by
    decide +kernel
  have lost :
      ((readBytes? (bytes (.number (.float ⟨0x46b8a6e32246c99d⟩ (by decide))))).map fun back =>
      decide (bytes back = bytes (.number (.float ⟨0x46b8a6e32246c99d⟩ (by decide)))))
        = some false := by
    decide +kernel
  obtain ⟨back, found, differs⟩ := Option.map_eq_some_iff.mp lost
  exact ⟨_, back, read, found, of_decide_eq_false differs⟩

end LedgerIntake.Canonical
