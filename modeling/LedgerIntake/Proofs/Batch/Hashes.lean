import LedgerIntake.Merkle
import LedgerIntake.Proofs.Batch.RoundTrip
import LedgerIntake.Proofs.Canonical

/-!
# Hashes of rows that were read back

Rows that all have the same keys are read back with those keys. Whether a row has the hash that it
had before is settled cell by cell: every type of column carries cells so that their normalized form
stays the same, except that a column of JSON text carries a binary64 only if the reader gives the
number that was written.
-/

namespace LedgerIntake.Batch

open Json

section Cells

variable {type : ColumnType} {cell decoded : Value} (carries : type.Carries cell decoded)
  (wellFormed : cell.WellFormed) (shallow : cell.depth ≤ greatestDepth)

include carries shallow

/-- What a column of JSON text carries is the value with its numbers read back. -/
theorem carries_json (json : type = .json) : decoded = cell.revalue Number.reread := by
  cases carries with
  | null => rfl
  | json value decoded present reads =>
    have read := readBytes?_toText cell shallow
    rw [read?, read] at reads
    exact (Option.some.inj reads).symm
  | _ => cases json

include wellFormed

/-- What is read for a well-formed cell is well formed. Only JSON text brings more than one number,
and its keys stay in order. -/
theorem wellFormed_of_carries : decoded.WellFormed := by
  by_cases json : type = .json
  · rw [carries_json carries shallow json]
    exact wellFormed_revalue wellFormed _
  · cases carries with
    | json => exact absurd rfl json
    | _ => trivial

/-- A cell has the same normalized form as before exactly if it was not carried as JSON text or all
of its numbers are read back as they were. -/
theorem settle_iff_of_carries : decoded.revalue Canonical.settle = cell.revalue Canonical.settle ↔
    (type = .json → ∀ number ∈ cell.numbers, number.reread = number) := by
  by_cases json : type = .json
  · rw [carries_json carries shallow json, revalue_revalue wellFormed,
      revalue_eq_revalue_iff wellFormed]
    simp only [Function.comp, Canonical.settle_reread_iff]
    constructor
    · intro same _
      exact same
    · intro same
      exact same json
  · have settled : decoded.revalue Canonical.settle = cell.revalue Canonical.settle := by
      cases carries with
      | json => exact absurd rfl json
      | widened number integer value finite known equal =>
        exact congrArg Value.number (Canonical.settle_widened finite known equal)
      | _ => rfl
    constructor
    · intro _ same
      contradiction
    · intro _
      exact settled

end Cells

section Rows

/-- Rows that are put together from cells that a type for each key carries. -/
def RowCarries (type : String → ColumnType) (row decoded : Row) : Prop :=
  List.Forall₂ (fun member read => member.1 = read.1 ∧
    (type member.1).Carries member.2 read.2) row decoded

variable {type : String → ColumnType} {row decoded : Row} (carries : RowCarries type row decoded)
  (shallow : ∀ member ∈ row, member.2.depth ≤ greatestDepth)

include carries shallow

/-- A row that was read back is as well formed as the one that was written, cell by cell. -/
theorem wellFormed_of_rowCarries (wellFormed : ∀ member ∈ row, member.2.WellFormed) :
    ∀ member ∈ decoded, member.2.WellFormed := by
  induction carries with
  | nil => exact wellFormed
  | cons first others inductionHypothesis =>
    obtain ⟨ownWellFormed, wellFormed⟩ := List.forall_mem_cons.mp wellFormed
    obtain ⟨ownShallow, shallow⟩ := List.forall_mem_cons.mp shallow
    have own := wellFormed_of_carries first.2 ownWellFormed ownShallow
    exact List.forall_mem_cons.mpr ⟨own, inductionHypothesis shallow wellFormed⟩

/-- The normalized form of a row is the same as before exactly if that of every cell is. -/
theorem settle_iff_of_rowCarries (wellFormed : ∀ member ∈ row, member.2.WellFormed) :
    (decoded.map fun member => (member.1, member.2.revalue Canonical.settle))
        = (row.map fun member => (member.1, member.2.revalue Canonical.settle)) ↔
      ∀ member ∈ row, type member.1 = .json → ∀ number ∈ member.2.numbers,
        number.reread = number := by
  induction carries with
  | nil => simp
  | @cons member read row decoded first others inductionHypothesis =>
    obtain ⟨ownWellFormed, wellFormed⟩ := List.forall_mem_cons.mp wellFormed
    obtain ⟨ownShallow, shallow⟩ := List.forall_mem_cons.mp shallow
    have cell := settle_iff_of_carries first.2 ownWellFormed ownShallow
    have later := inductionHypothesis shallow wellFormed
    rw [List.map_cons, List.map_cons, List.cons.injEq, Prod.mk.injEq, List.forall_mem_cons, later,
      cell]
    constructor
    · rintro ⟨⟨-, own⟩, rest⟩
      exact ⟨own, rest⟩
    · rintro ⟨own, rest⟩
      exact ⟨⟨first.1.symm, own⟩, rest⟩

end Rows

/-- A row all of whose keys are columns is read back with these keys, in the same order, as
both lists of keys are sorted. -/
theorem rowCarries_of_restores {table : Table} {rows : List Row} (restored : table.Restores rows)
    {index : Nat}
    {row decoded : Row} (found : rows[index]? = some row) (read : table.rows[index]? = some decoded)
    (sorted : Members.Sorted row) (full : ∀ name, name ∈ columnNames rows ↔ name ∈ row.keys) :
    RowCarries (fun name => inferType (cellsOf rows name)) row decoded := by
  obtain ⟨sorted', named⟩ := restored.keys decoded (List.mem_of_getElem? read)
  have keys : row.keys = decoded.keys :=
    Members.keys_eq_of_mem_iff sorted sorted' fun name => (full name).symm.trans (named name).symm
  apply List.forall₂_iff_get.mpr
  have length := congrArg List.length keys
  rw [Members.keys, Members.keys, List.length_map, List.length_map] at length
  refine ⟨length, ?_⟩
  intro place inside inside'
  have key : row[place].1 = decoded[place].1 := by
    have same : row.keys[place]? = decoded.keys[place]? := by rw [keys]
    simp only [Members.keys, List.getElem?_map, List.getElem?_eq_getElem inside,
      List.getElem?_eq_getElem inside', Option.map_some, Option.some.injEq] at same
    exact same
  have present : row[place].1 ∈ columnNames rows :=
    (full _).mpr (List.mem_map_of_mem (List.getElem_mem inside))
  obtain ⟨value, stands, carried⟩ := restored.cells index row decoded found read _ present
  rw [Members.get?_of_mem sorted (List.getElem_mem inside), Option.getD_some] at carried
  rw [key, Members.get?_of_mem sorted' (List.getElem_mem inside')] at stands
  cases stands
  exact ⟨key, carried⟩

/-- The cells of a row that are carried as JSON text hold only numbers whose text is read as the
number. Integers always are. -/
def Faithful (rows : List Row) (row : Row) : Prop :=
  ∀ member ∈ row, inferType (cellsOf rows member.1) = .json →
    ∀ number ∈ member.2.numbers, Number.read? number.text.toList = some number

/-- The text of a number is read as the number exactly if the number is read back. -/
theorem read?_text_iff (number : Number) :
    Number.read? number.text.toList = some number ↔ number.reread = number := by
  rw [Number.read?_text, Option.some.injEq]

/-- A row that was read back has the canonical bytes of the one that was
written exactly if it is faithful. -/
theorem bytes_iff_of_restores {table : Table} {rows : List Row} (restored : table.Restores rows)
    {index : Nat}
    {row decoded : Row} (found : rows[index]? = some row) (read : table.rows[index]? = some decoded)
    (wellFormed : (Value.object row).WellFormed)
    (shallow : ∀ member ∈ row, member.2.depth ≤ greatestDepth)
    (full : ∀ name, name ∈ columnNames rows ↔ name ∈ row.keys) :
    Canonical.bytes (.object decoded) = Canonical.bytes (.object row) ↔ Faithful rows row := by
  have sorted : Members.Sorted row := wellFormed.1
  have each := wellFormedMembers_iff.mp wellFormed.2
  have sorted' := (restored.keys decoded (List.mem_of_getElem? read)).1
  have carries := rowCarries_of_restores restored found read sorted full
  have proper : (Value.object decoded).WellFormed :=
    ⟨sorted', wellFormedMembers_iff.mpr (wellFormed_of_rowCarries carries shallow each)⟩
  rw [Canonical.bytes_eq_bytes_iff proper wellFormed, revalue_object sorted', revalue_object sorted,
    Value.object.injEq, settle_iff_of_rowCarries carries shallow each]
  simp only [Faithful, read?_text_iff]

/-- Rows whose canonical bytes are the same have the same hashes, since nothing else is hashed. -/
theorem hashes_eq_of_bytes {rows decoded : List Row} (length : decoded.length = rows.length)
    (same : ∀ (index : Nat) (row other : Row), rows[index]? = some row →
      decoded[index]? = some other →
      Canonical.bytes (.object other) = Canonical.bytes (.object row)) :
    Merkle.hashes (decoded.map .object) = Merkle.hashes (rows.map .object) := by
  apply List.ext_getElem
  · simp [Merkle.hashes, length]
  · intro index inside inside'
    simp only [Merkle.hashes, List.length_map] at inside inside'
    have bytes :=
      same index _ _ (List.getElem?_eq_getElem inside') (List.getElem?_eq_getElem inside)
    simp only [Merkle.hashes, List.getElem_map, Canonical.hash, bytes]

section Uniform

variable {rows : List Row} {keys : List String}
  (uniform : ∀ row ∈ rows, ∀ key, key ∈ Members.keys row ↔ key ∈ keys)

include uniform

/-- The columns of rows with the same keys are the keys of each of them. -/
theorem mem_columnNames_of_uniform {row : Row} (member : row ∈ rows) (name : String) :
    name ∈ columnNames rows ↔ name ∈ row.keys := by
  rw [columnNames, List.mem_eraseDups, List.mem_flatMap, uniform row member]
  constructor
  · rintro ⟨other, inside, key⟩
    exact (uniform other inside name).mp key
  · intro key
    exact ⟨row, member, (uniform row member name).mpr key⟩

/-- Rows that all have the same keys make columns, if there are rows and keys. -/
theorem columnNames_ne_nil_of_uniform (present : rows ≠ []) (named : keys ≠ []) :
    columnNames rows ≠ [] := by
  obtain ⟨row, member⟩ := List.exists_mem_of_ne_nil rows present
  obtain ⟨key, known⟩ := List.exists_mem_of_ne_nil keys named
  apply columnNames_ne_nil
  refine ⟨row, member, ?_⟩
  rintro rfl
  cases (uniform [] member key).mpr known

end Uniform

/-- Rows with the same keys are read back with the canonical bytes that they had before, each of
them exactly if it is faithful; if all of them are, their hashes and their root are the same. Only a
number of keys that no header can count is refused. -/
theorem canonical_bytes_iff_faithful (rows : List Row) (keys : List String) (bytes : Bytes)
    (encoded : encode rows = .ok bytes) (present : rows ≠ []) (named : keys ≠ [])
    (uniform : ∀ row ∈ rows, ∀ key, key ∈ Members.keys row ↔ key ∈ keys)
    (wellFormed : ∀ row ∈ rows, (Value.object row).WellFormed)
    (shallow : ∀ row ∈ rows, ∀ member ∈ row, member.2.depth ≤ greatestDepth) :
    (UInt32.size ≤ (columnNames rows).length ∧ ∃ refusal, decode bytes = .error refusal) ∨
      ∃ table, decode bytes = .ok table ∧ table.rows.length = rows.length ∧
        (∀ (index : Nat) (row decoded : Row), rows[index]? = some row →
          table.rows[index]? = some decoded →
          (Canonical.bytes (.object decoded) = Canonical.bytes (.object row) ↔ Faithful rows row)) ∧
        ((∀ row ∈ rows, Faithful rows row) →
          Merkle.hashes (table.rows.map .object) = Merkle.hashes (rows.map .object) ∧
            Merkle.rootOf (table.rows.map .object) = Merkle.rootOf (rows.map .object)) := by
  obtain ⟨columns, parts⟩ := writtenAs_of_encode encoded
  rcases Nat.lt_or_ge (columnNames rows).length UInt32.size with counted | uncounted
  · right
    have columnsNamed := columnNames_ne_nil_of_uniform uniform present named
    obtain ⟨decoded, read, standing⟩ := decode_of_few parts shallow (.inr columnsNamed) counted
    have restored := restores_of_columns standing
    have each (index : Nat) (row other : Row) (found : rows[index]? = some row)
        (back : (Table.rows ⟨rows.length, decoded⟩)[index]? = some other) :
        Canonical.bytes (.object other) = Canonical.bytes (.object row) ↔ Faithful rows row := by
      have member := List.mem_of_getElem? found
      exact bytes_iff_of_restores restored found back (wellFormed row member) (shallow row member)
        (mem_columnNames_of_uniform uniform member)
    refine ⟨_, read, restored.count, each, ?_⟩
    intro faithful
    have hashes := hashes_eq_of_bytes restored.count fun index row other found back =>
      (each index row other found back).mpr (faithful row (List.mem_of_getElem? found))
    exact ⟨hashes, congrArg Merkle.root hashes⟩
  · left
    exact ⟨uncounted, decode_of_many parts shallow uncounted⟩

/-- Two rows with a text and a number under one key: a column of JSON text. -/
def textAndNumber (number : Number) : List Row :=
  [[("v", .text "x")], [("v", .number number)]]

/-- Rows of a text and a number are faithful if the text of the number is read as the number. -/
theorem faithful_textAndNumber {number : Number}
    (read : Number.read? number.text.toList = some number) :
    ∀ row ∈ textAndNumber number, Faithful (textAndNumber number) row := by
  simp [textAndNumber, Faithful, Value.numbers, read]

/-- A half beside a text is faithful, so the row has the same root when it comes back. -/
theorem canonical_bytes_iff_faithful_half :
    ∃ number bytes table, Number.read? "0.5".toList = some number ∧
    encode (textAndNumber number) = .ok bytes ∧ decode bytes = .ok table ∧
      Merkle.rootOf (table.rows.map .object) = Merkle.rootOf
      ((textAndNumber number).map .object) := by
  have read : Number.read? "0.5".toList = some (.float ⟨0x3fe0000000000000⟩ (by decide)) := by
    decide +kernel
  have again : Number.read? (Number.float ⟨0x3fe0000000000000⟩ (by decide)).text.toList
      = some (.float ⟨0x3fe0000000000000⟩ (by decide)) := by decide +kernel
  have written : (encode (textAndNumber (.float ⟨0x3fe0000000000000⟩ (by decide)))).isOk
    = true := by
    decide +kernel
  cases encoded : encode (textAndNumber (.float ⟨0x3fe0000000000000⟩ (by decide))) with
  | error refusal =>
    rw [encoded] at written
    cases written
  | ok bytes =>
    have outcome := canonical_bytes_iff_faithful _ ["v"] bytes encoded (List.cons_ne_nil _ _)
      (List.cons_ne_nil _ _) (by simp [textAndNumber, Members.keys])
      (by simp [textAndNumber, Value.WellFormed, WellFormedMembers, Members.Sorted])
      (by simp [textAndNumber, Value.depth])
    rcases outcome with ⟨many, -⟩ | ⟨table, back, -, -, hashes⟩
    · have few :
          ¬UInt32.size
            ≤ (columnNames (textAndNumber (.float ⟨0x3fe0000000000000⟩ (by decide)))).length := by
        decide +kernel
      exact absurd many few
    · exact ⟨_, bytes, table, read, encoded, back, (hashes (faithful_textAndNumber again)).2⟩

/-- The text `5e32` is read as a number whose own text is read as a smaller one, so a row that has
it beside a text loses its canonical bytes. -/
theorem canonical_bytes_lost : ∃ number bytes table, Number.read? "5e32".toList = some number ∧
    encode (textAndNumber number) = .ok bytes ∧ decode bytes = .ok table ∧
      table.rows.map (fun row => Canonical.bytes (.object row))
        ≠ (textAndNumber number).map (fun row => Canonical.bytes (.object row)) := by
  have read : Number.read? "5e32".toList = some (.float ⟨0x46b8a6e32246c99d⟩ (by decide)) := by
    decide +kernel
  have lost : ((encode (textAndNumber (.float ⟨0x46b8a6e32246c99d⟩ (by decide)))).toOption.bind
      fun bytes => (decode bytes).toOption.map fun table =>
        decide (table.rows.map (fun row => Canonical.bytes (.object row))
          = (textAndNumber (.float ⟨0x46b8a6e32246c99d⟩ (by decide))).map
            (fun row => Canonical.bytes (.object row)))) = some false := by
    decide +kernel
  cases encoded : encode (textAndNumber (.float ⟨0x46b8a6e32246c99d⟩ (by decide))) with
  | error refusal =>
    rw [encoded] at lost
    cases lost
  | ok bytes =>
    rw [encoded] at lost
    cases back : decode bytes with
    | error refusal =>
      simp only [Except.toOption, Option.bind_some, back] at lost
      cases lost
    | ok table =>
      simp only [Except.toOption, Option.bind_some, back, Option.map_some, Option.some.injEq,
        decide_eq_false_iff_not] at lost
      exact ⟨_, bytes, table, read, encoded, back, lost⟩

end LedgerIntake.Batch
