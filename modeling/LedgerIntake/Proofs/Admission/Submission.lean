import Mathlib.Data.List.Nodup
import LedgerIntake.Proofs.Admission
import LedgerIntake.Proofs.Batch.Encoding
import LedgerIntake.Proofs.Batch.Hashes

/-!
# Verdicts on submitted rows

Rows that are submitted as a batch are checked as they are read back. A row has gained keys of other
rows by then, its numbers may have been widened, and its nested values have been through their
texts. None of that changes the verdict: a value that was read back is as much null, and as much a
text, as the one that was written, and a key that was gained has null, which counts for no more than
a key that is missing. Only the wording of a fault may change: a field that was missing is null
where another row of the batch has a key of it.

The header counts columns in 32 bits. Rows with more keys than that are written all the same, and no
verdict on them is given: the batch is refused for its header, or for the columns that stand behind
those that the header counts.
-/

namespace LedgerIntake

open Json Batch

section Cells

variable {type : ColumnType} {cell decoded : Value} (carries : type.Carries cell decoded)
  (shallow : cell.depth ≤ greatestDepth)

include carries shallow

/-- A cell that is read back is null exactly if it was written as null. -/
theorem Batch.isNull_of_carries : decoded.isNull = cell.isNull := by
  by_cases json : type = .json
  · rw [carries_json carries shallow json]
    cases cell <;> rfl
  · cases carries with
    | json => exact absurd rfl json
    | _ => rfl

/-- A cell that is read back has the text that was written, if it was text. -/
theorem Batch.text?_of_carries : decoded.text? = cell.text? := by
  by_cases json : type = .json
  · rw [carries_json carries shallow json]
    cases cell <;> rfl
  · cases carries with
    | json => exact absurd rfl json
    | _ => rfl

end Cells

namespace Record

/-- The keys under which a field may stand. -/
def keysOf : RequiredField → List String
  | .eventType => [RequiredField.eventType.name, eventAlias]
  | field => [field.name]

/-- Some row has a key of a field. -/
def Carried (rows : List Row) (field : RequiredField) : Prop :=
  ∃ key ∈ keysOf field, ∃ row ∈ rows, key ∈ Members.keys row

/-- Whether rows carry a field is decided by looking through the keys of all of them. -/
instance (rows : List Row) (field : RequiredField) : Decidable (Carried rows field) :=
  inferInstanceAs (Decidable (∃ key ∈ keysOf field, ∃ row ∈ rows, key ∈ Members.keys row))

/-- What a fault of a row is among the rows of a batch: a field that the row lacks is
null if another row has it. -/
def within (rows : List Row) : RecordFault → RecordFault
  | .missing field => if Carried rows field then .null field else .missing field
  | fault => fault

/-- A row as it is read back among others: under its own keys it has what counts as the same, and
under the keys of other rows null. -/
structure ReadBack (rows : List Row) (row decoded : Row) : Prop where
  held : ∀ name value, Members.get? row name = some value →
    ∃ other, Members.get? decoded name = some other ∧ other.isNull = value.isNull ∧
      other.text? = value.text?
  gained : ∀ name, Members.get? row name = none →
    Members.get? decoded name = if ∃ row ∈ rows, name ∈ Members.keys row then some .null else none

/-- Whether there is a value under a key, and whether it is null. -/
def presenceAt (row : Row) (key : String) : Option Bool := (Members.get? row key).map Value.isNull

/-- Whether a field has a value, and whether that is null. -/
def presence (row : Row) (field : RequiredField) : Option Bool :=
  (valueOf row field).map Value.isNull

/-- An event under two keys is null if both values are, so a value under either is enough. -/
theorem presence_eventType (row : Row) :
    presence row .eventType
      = Option.merge (· && ·) (presenceAt row RequiredField.eventType.name)
      (presenceAt row eventAlias) := by
  rw [presence, valueOf, presenceAt, presenceAt]
  cases Members.get? row RequiredField.eventType.name with
  | none => cases Members.get? row eventAlias <;> rfl
  | some value =>
    cases Members.get? row eventAlias with
    | none => rfl
    | some other =>
      cases empty : value.isNull
      · simp [empty]
      · simp [empty]

/-- What is wrong with a field, by whether it has a value and whether that is null. -/
def absenceOfField (field : RequiredField) : Option Bool → Option RecordFault
  | none => some (.missing field)
  | some true => some (.null field)
  | some false => none

/-- The first absent field is searched in the order in which fields are required. So what is absent
depends on a row through the presence of its fields alone. -/
theorem absence?_eq (row : Row) :
    absence? row = [RequiredField.entityId, .eventType, .timestamp].findSome? fun field =>
      absenceOfField field (presence row field) := by
  rw [absence?]
  congr 1
  funext field
  rw [presence]
  cases valueOf row field with
  | none => rfl
  | some value =>
    rw [Option.map_some]
    dsimp only
    cases value.isNull <;> rfl

/-- An entity is there exactly if its field holds text that is not empty. -/
theorem hasEntity_eq (row : Row) :
    hasEntity row =
      ((Members.get? row RequiredField.entityId.name).bind Value.text?).any fun text =>
        !text.isEmpty := by
  rw [hasEntity]
  cases Members.get? row RequiredField.entityId.name with
  | none => rfl
  | some value => cases value <;> rfl

section Faults

variable {rows : List Row} {row decoded : Row} (back : ReadBack rows row decoded)

include back

/-- Under a key of its own a row has null or not as before; under a key
of another row it has null. -/
theorem presenceAt_of_readBack (key : String) :
    presenceAt decoded key
      = (presenceAt row key).or
      (if ∃ row ∈ rows, key ∈ Members.keys row then some true else none) := by
  rw [presenceAt, presenceAt]
  cases found : Members.get? row key with
  | none =>
    rw [back.gained key found]
    split <;> rfl
  | some value =>
    obtain ⟨other, read, same, -⟩ := back.held key value found
    rw [read, Option.map_some, Option.map_some, same, Option.some_or]

/-- A field that was read back is as present as the one that was written; where the row lacked it
and another row had it, it is null. -/
theorem presence_of_readBack (field : RequiredField) :
    presence decoded field = (presence row field).or
    (if Carried rows field then some true else none) := by
  cases field with
  | eventType =>
    rw [presence_eventType, presence_eventType, presenceAt_of_readBack back,
      presenceAt_of_readBack back]
    simp only [Carried, keysOf, List.exists_mem_cons_iff, List.not_mem_nil, false_and, exists_false,
      or_false]
    -- Either key may be there or gained, with null or not. Null under one key
    -- hides no value under the other.
    generalize presenceAt row RequiredField.eventType.name = first
    generalize presenceAt row eventAlias = second
    split <;> split <;> cases first <;> cases second <;> simp [*]
  | entityId =>
    simp only [Carried, keysOf, List.exists_mem_cons_iff, List.not_mem_nil, false_and, exists_false,
      or_false]
    exact presenceAt_of_readBack back _
  | timestamp =>
    simp only [Carried, keysOf, List.exists_mem_cons_iff, List.not_mem_nil, false_and, exists_false,
      or_false]
    exact presenceAt_of_readBack back _

/-- A row that was read back lacks the same field, and the reason tells null from a missing key
where some other row has the key. -/
theorem absence?_of_readBack : absence? decoded = (absence? row).map (within rows) := by
  rw [absence?_eq, absence?_eq, List.map_findSome?]
  congr 1
  funext field
  rw [presence_of_readBack back field, Function.comp_apply]
  rcases presence row field with _ | _ | _
  · rw [absenceOfField, Option.map_some, within, Option.none_or]
    split <;> rfl
  · rfl
  · rfl

/-- A row that was read back has an entity exactly if it had one when it was written. -/
theorem hasEntity_of_readBack : hasEntity decoded = hasEntity row := by
  rw [hasEntity_eq, hasEntity_eq]
  cases found : Members.get? row RequiredField.entityId.name with
  | none =>
    rw [back.gained _ found]
    split <;> rfl
  | some value =>
    obtain ⟨other, read, -, same⟩ := back.held _ value found
    rw [read, Option.bind_some, Option.bind_some, same]

/-- A row that is read back has the fault that it had, as it is told among the rows of its batch. -/
theorem fault?_of_readBack : fault? decoded = (fault? row).map (within rows) := by
  rw [fault?, fault?, absence?_of_readBack back, hasEntity_of_readBack back, Option.map_or]
  congr 1
  split <;> rfl

end Faults

end Record

/-- The keys of the columns of a batch are those of its rows, taken together. -/
theorem Batch.mem_columnNames {rows : List Row} (name : String) :
    name ∈ columnNames rows ↔ ∃ row ∈ rows, name ∈ Members.keys row := by
  rw [columnNames, List.mem_eraseDups, List.mem_flatMap]

/-- A table that restores rows has each of them as it is read back among the others. -/
theorem Record.readBack_of_restores {table : Table} {rows : List Row}
    (restored : table.Restores rows)
    (shallow : ∀ row ∈ rows, ∀ member ∈ row, member.2.depth ≤ greatestDepth) {index : Nat}
    {row decoded : Row}
    (found : rows[index]? = some row) (read : table.rows[index]? = some decoded) :
    ReadBack rows row decoded where
  held := by
    intro name value here
    have member := Members.mem_of_get? here
    have among : row ∈ rows := List.mem_of_getElem? found
    have column : name ∈ columnNames rows :=
      (mem_columnNames name).mpr ⟨row, among, List.mem_map_of_mem member⟩
    obtain ⟨other, there, carries⟩ := restored.cells index row decoded found read name column
    rw [here, Option.getD_some] at carries
    exact ⟨other, there, isNull_of_carries carries (shallow row among _ member),
      text?_of_carries carries (shallow row among _ member)⟩
  gained := by
    intro name absent
    by_cases column : name ∈ columnNames rows
    · obtain ⟨other, there, carries⟩ := restored.cells index row decoded found read name column
      rw [absent, Option.getD_none] at carries
      have empty := isNull_of_carries carries (Nat.zero_le _)
      rw [if_pos ((mem_columnNames name).mp column), there]
      cases other with
      | null => rfl
      | _ => contradiction
    · rw [if_neg fun carried => column ((mem_columnNames name).mpr carried)]
      cases there : Members.get? decoded name with
      | none => rfl
      | some value =>
        have key : name ∈ Members.keys decoded := List.mem_map_of_mem (Members.mem_of_get? there)
        exact absurd ((restored.keys decoded (List.mem_of_getElem? read)).2 name |>.mp key) column

namespace Examined

/-- A list tells what is wrong with rows that were submitted together: every faulty
row once, by increasing index, with the field that its own fault concerns, and
worded as it is among the others. -/
structure ListsWithin (rows : List Row) (faults : List RowFault) : Prop where
  increasing : faults.Pairwise fun earlier later => earlier.row.toNat < later.row.toNat
  exact : ∀ fault, fault ∈ faults ↔ ∃ index row cause, rows[index]? = some row ∧
    Record.ofRow row = .error cause ∧ fault.row.toNat = index ∧
    fault.field = cause.field?.map RequiredField.name ∧
      fault.reason = (Record.within rows cause).message

/-- What rows that are submitted together have to be answered, given
what each of them is by itself. -/
structure Judges (pool : Pool) (rows : List Row) (reply : Acknowledgment) : Prop where
  accepted : reply = .accepted ↔
    (∀ row ∈ rows, ∃ record, Record.ofRow row = .ok record) ∧
      rows.length ≤ pool.capacity - pool.size
  /-- Whether there is room for the rows plays no part. -/
  invalid : (∃ message faults, reply = .rejected ⟨.validation, message, faults⟩) ↔
    ∃ row ∈ rows, ∃ cause, Record.ofRow row = .error cause
  listed : ∀ message faults, reply = .rejected ⟨.validation, message, faults⟩ →
    ListsWithin rows faults
  crowded : (∃ message, reply = .rejected ⟨.capacity, message, []⟩) ↔
    (∀ row ∈ rows, ∃ record, Record.ofRow row = .ok record) ∧
      pool.capacity - pool.size < rows.length

section Outcomes

variable {pool : Pool} {rows : List Row}

/-- Rows that are all records have no fault among them, so the cases of
a reply exclude each other. -/
theorem flawless_of_records (all : ∀ row ∈ rows, ∃ record, Record.ofRow row = .ok record) :
    ¬∃ row ∈ rows, ∃ cause, Record.ofRow row = .error cause := by
  rintro ⟨row, member, cause, refused⟩
  obtain ⟨record, taken⟩ := all row member
  rw [taken] at refused
  contradiction

/-- Where all rows are records and there is room, an acceptance is what the rows deserve. -/
theorem judges_accepted (all : ∀ row ∈ rows, ∃ record, Record.ofRow row = .ok record)
    (room : rows.length ≤ pool.capacity - pool.size) : Judges pool rows .accepted where
  accepted := ⟨fun _ => ⟨all, room⟩, fun _ => rfl⟩
  invalid := by
    constructor
    · rintro ⟨_, _, ⟨⟩⟩
    · intro fault
      exact absurd fault (flawless_of_records all)
  listed := by rintro _ _ ⟨⟩
  crowded := by
    constructor
    · rintro ⟨_, ⟨⟩⟩
    · rintro ⟨-, exceeds⟩
      exact absurd room (Nat.not_le.mpr exceeds)

/-- Where all rows are records but there is no room for all, a rejection for
capacity is what the rows deserve. -/
theorem judges_crowded (all : ∀ row ∈ rows, ∃ record, Record.ofRow row = .ok record)
    (exceeds : pool.capacity - pool.size < rows.length) (message : String) :
    Judges pool rows (.rejected ⟨.capacity, message, []⟩) where
  accepted := by
    constructor
    · rintro ⟨⟩
    · rintro ⟨-, room⟩
      exact absurd room (Nat.not_le.mpr exceeds)
  invalid := by
    constructor
    · rintro ⟨_, _, ⟨⟩⟩
    · intro fault
      exact absurd fault (flawless_of_records all)
  listed := by rintro _ _ ⟨⟩
  crowded := ⟨fun _ => ⟨all, exceeds⟩, fun _ => ⟨message, rfl⟩⟩

/-- Where some row is no record, a rejection that lists the faults is what the rows
deserve, whatever room there is. -/
theorem judges_invalid (wrong : ∃ row ∈ rows, ∃ cause, Record.ofRow row = .error cause)
    {faults : List RowFault}
    (lists : ListsWithin rows faults) (message : String) :
    Judges pool rows (.rejected ⟨.validation, message, faults⟩) where
  accepted := by
    constructor
    · rintro ⟨⟩
    · rintro ⟨all, -⟩
      exact absurd wrong (flawless_of_records all)
  invalid := ⟨fun _ => wrong, fun _ => ⟨message, faults, rfl⟩⟩
  listed := by
    rintro _ _ ⟨⟩
    exact lists
  crowded := by
    constructor
    · rintro ⟨_, ⟨⟩⟩
    · rintro ⟨all, -⟩
      exact absurd wrong (flawless_of_records all)

end Outcomes

/-- The field of a fault stays the same among the rows of a batch; only the reason may tell null. -/
theorem field?_within (rows : List Row) (cause : RecordFault) :
    (Record.within rows cause).field? = cause.field? := by
  cases cause with
  | missing field =>
    rw [Record.within]
    split <;> rfl
  | _ => rfl

section Verdict

variable {table : Table} {rows : List Row} (length : table.rows.length = rows.length)
  (verdicts : ∀ (index : Nat) (row decoded : Row), rows[index]? = some row →
    table.rows[index]? = some decoded →
    Record.fault? decoded = (Record.fault? row).map (Record.within rows))

include length verdicts

/-- Rows are read back with a fault among them exactly if there is one. -/
theorem passes_iff_of_verdicts :
    (∀ row ∈ table.rows, Record.fault? row = none) ↔ ∀ row ∈ rows, Record.fault? row = none := by
  constructor
  · intro passing row member
    obtain ⟨index, inside, same⟩ := List.mem_iff_getElem.mp member
    have inside' : index < table.rows.length := length.symm ▸ inside
    have verdict := verdicts index row table.rows[index] (same ▸ List.getElem?_eq_getElem inside)
      (List.getElem?_eq_getElem inside')
    rw [passing _ (List.getElem_mem inside')] at verdict
    exact Option.map_eq_none_iff.mp verdict.symm
  · intro passing decoded member
    obtain ⟨index, inside, same⟩ := List.mem_iff_getElem.mp member
    have inside' : index < rows.length := length ▸ inside
    rw [verdicts index rows[index] decoded (List.getElem?_eq_getElem inside')
      (same ▸ List.getElem?_eq_getElem inside), passing _ (List.getElem_mem inside'),
        Option.map_none]

/-- The faults of the rows that were read back are listed as faults of
the rows that were written. -/
theorem listsWithin_of_verdicts (few : rows.length ≤ rowLimit) :
    ListsWithin rows (rowFaults table.rows) := by
  have lists := rowFaults_lists (length.symm ▸ few)
  refine ⟨lists.increasing, ?_⟩
  intro fault
  rw [lists.exact]
  -- The row at an index and the row that is read back there are at fault together, so
  -- each gives the other's cause.
  constructor
  · rintro ⟨index, decoded, told, found, refused, number, field, reason⟩
    have inside : index < rows.length := length ▸ (List.getElem?_eq_some_iff.mp found).1
    have verdict := verdicts index rows[index] decoded (List.getElem?_eq_getElem inside) found
    rw [(Record.ofRow_eq_error_iff decoded told).mp refused] at verdict
    obtain ⟨cause, own, rfl⟩ := Option.map_eq_some_iff.mp verdict.symm
    rw [field?_within] at field
    exact ⟨index, rows[index], cause, List.getElem?_eq_getElem inside,
      (Record.ofRow_eq_error_iff _ cause).mpr own,
      number, field, reason⟩
  · rintro ⟨index, row, cause, found, refused, number, field, reason⟩
    have inside : index < table.rows.length := length.symm ▸ (List.getElem?_eq_some_iff.mp found).1
    have verdict := verdicts index row table.rows[index] found (List.getElem?_eq_getElem inside)
    rw [(Record.ofRow_eq_error_iff row cause).mp refused, Option.map_some] at verdict
    rw [← field?_within rows] at field
    exact ⟨index, table.rows[index], Record.within rows cause, List.getElem?_eq_getElem inside,
      (Record.ofRow_eq_error_iff _ _).mpr verdict, number, field, reason⟩

/-- Rows that are read back are answered as the rows that were written have to be. -/
theorem judges_of_verdicts [Diagnostics] (few : rows.length ≤ rowLimit) (pool : Pool) :
    Judges pool rows ((ofRows table.rows).offer pool).1 := by
  by_cases passing : ∀ row ∈ rows, Record.fault? row = none
  · have decoded := (passes_iff_of_verdicts length verdicts).mpr passing
    have count := (length_records decoded).trans length
    have all : ∀ row ∈ rows, ∃ record, Record.ofRow row = .ok record :=
      fun row member => (Record.exists_ofRow_iff row).mpr (passing row member)
    rw [ofRows_of_passes decoded]
    by_cases room : rows.length ≤ pool.capacity - pool.size
    · rw [offer_of_le _ _ (count ▸ room)]
      exact judges_accepted all room
    · have exceeds := Nat.lt_of_not_le room
      rw [offer_of_lt _ _ (count ▸ exceeds)]
      exact judges_crowded all exceeds _
  · have wrong : ¬∀ row ∈ table.rows, Record.fault? row = none :=
      fun decoded => passing ((passes_iff_of_verdicts length verdicts).mp decoded)
    have faulty : ∃ row ∈ rows, ∃ cause, Record.ofRow row = .error cause := by
      simp only [Classical.not_forall] at passing
      obtain ⟨row, member, fault⟩ := passing
      obtain ⟨cause, found⟩ := Option.ne_none_iff_exists'.mp fault
      exact ⟨row, member, cause, (Record.ofRow_eq_error_iff row cause).mpr found⟩
    rw [ofRows_of_fault wrong]
    exact judges_invalid faulty (listsWithin_of_verdicts length verdicts few) _

end Verdict

end Examined

/-- Rows that were written as a batch are answered as each of them has to be by itself, whatever the
pool holds. A batch that no frame can carry, because its keys are more than a header can count, is
refused as unreadable. A row that was read back has the verdict of the row that was written, and a
reply is made of the verdicts. -/
theorem Intake.handle_judges [Diagnostics] (intake : Intake) (rows : List Row) (bytes : Bytes)
    (elapsed : Elapsed)
    (encoded : encode rows = .ok bytes) (keyed : rows = [] ∨ ∃ row ∈ rows, row ≠ [])
    (shallow : ∀ row ∈ rows, ∀ member ∈ row, member.2.depth ≤ greatestDepth) :
    (UInt32.size ≤ (columnNames rows).length ∧ UInt32.size ≤ bytes.length ∧
        ∃ message, (intake.handle bytes elapsed).1 = .rejected ⟨.codec, message, []⟩) ∨
      Examined.Judges intake.pool rows (intake.handle bytes elapsed).1 := by
  have reply : (intake.handle bytes elapsed).1 = ((Examined.ofPayload bytes).offer intake.pool).1 :=
    rfl
  rw [reply, Examined.ofPayload]
  obtain ⟨columns, parts⟩ := writtenAs_of_encode encoded
  rcases Nat.lt_or_ge (columnNames rows).length UInt32.size with counted | uncounted
  · right
    obtain ⟨decoded, read, standing⟩ :=
      decode_of_few parts shallow (keyed.imp_right columnNames_ne_nil) counted
    have restored := restores_of_columns standing
    rw [read]
    apply Examined.judges_of_verdicts restored.count _ parts.few
    intro index row back found there
    exact Record.fault?_of_readBack (Record.readBack_of_restores restored shallow found there)
  · -- The header counts too few columns: it is refused itself, or some of them are left over
    -- behind the batch.
    left
    obtain ⟨refusal, refused⟩ := decode_of_many parts shallow uncounted
    refine ⟨uncounted, Nat.le_trans uncounted (length_columnNames_le_of_writtenAs parts), ?_⟩
    rw [refused]
    exact ⟨_, rfl⟩

section

attribute [local instance] Diagnostics.plain

/-- Two rows of which one has its event under the other key and one has none; their entities are a
text and a number, so that they travel as JSON text, and one time is widened. -/
def unequalRows : List Row :=
  [[("entity_id", .text "e1"), ("event", .text "create"), ("timestamp", .number (.natural 1))],
    [("entity_id", .number (.natural 7)),
      ("timestamp", .number (.float ⟨0x3fe0000000000000⟩ (by decide)))]]

/-- Rows that lack different fields are judged one by one: a batch of them is turned down, and its
faults are those of the rows. -/
theorem Intake.handle_judges_unequalRows : ∃ bytes message faults, encode unequalRows = .ok bytes ∧
    (Intake.handle ⟨⟨1, [], 1, 0, 0⟩, .fresh⟩ bytes ⟨0, 0⟩).1
      = .rejected ⟨.validation, message, faults⟩ ∧
      Examined.ListsWithin unequalRows faults := by
  have keyed : unequalRows = [] ∨ ∃ row ∈ unequalRows, row ≠ [] :=
    .inr ⟨_, List.mem_cons_self, List.cons_ne_nil _ _⟩
  have shallow : ∀ row ∈ unequalRows, ∀ member ∈ row, member.2.depth ≤ greatestDepth := by
    decide
  have few : ¬UInt32.size ≤ (columnNames unequalRows).length := by decide
  have written : (encode unequalRows).isOk = true := by decide +kernel
  have fault : Record.ofRow [("entity_id", .number (.natural 7)),
      ("timestamp", .number (.float ⟨0x3fe0000000000000⟩ (by decide)))]
        = .error (.missing .eventType) :=
    (Record.ofRow_eq_error_iff _ _).mpr (by decide)
  cases encoded : encode unequalRows with
  | error refusal =>
    rw [encoded] at written
    cases written
  | ok bytes =>
    rcases Intake.handle_judges ⟨⟨1, [], 1, 0, 0⟩, .fresh⟩ unequalRows
      bytes ⟨0, 0⟩ encoded keyed shallow with
      ⟨many, -⟩ | judges
    · exact absurd many few
    · obtain ⟨message, faults, refused⟩ :=
        judges.invalid.mpr ⟨_, List.mem_cons_of_mem _ List.mem_cons_self, _, fault⟩
      exact ⟨bytes, message, faults, rfl, refused, judges.listed message faults refused⟩

end

/-! ## More columns than a header counts -/

section Uncounted

/-- A batch whose columns are a multiple of `2 ^ 32` begins with a header that counts none of them.
It is refused for its header, whatever its rows are. -/
theorem Intake.handle_of_uncounted [Diagnostics] {rows : List Row} {bytes : Bytes}
    (encoded : encode rows = .ok bytes)
    (uncounted : UInt32.ofNat (columnNames rows).length = 0) (filled : rows ≠ []) (intake : Intake)
    (elapsed : Elapsed) :
    (intake.handle bytes elapsed).1 =
      .rejected ⟨.codec, (BatchError.header (.rowsWithoutColumns rows.length)).message, []⟩ := by
  obtain ⟨columns, parts⟩ := writtenAs_of_encode encoded
  have number : (UInt32.ofNat rows.length).toNat = rows.length :=
    UInt32.toNat_ofNat_of_lt' (Nat.lt_of_le_of_lt parts.few (by decide))
  have some : UInt32.ofNat rows.length ≠ 0 := by
    intro zero
    rw [zero] at number
    exact filled (List.eq_nil_of_length_eq_zero number.symm)
  have refused :=
    Header.decode_ofCounts (UInt32.ofNat (columnNames rows).length) (UInt32.ofNat rows.length)
      columns.flatten (number.symm ▸ parts.few)
  rw [← parts.bytes, if_pos ⟨uncounted, some⟩, number] at refused
  have reply : (intake.handle bytes elapsed).1 = ((Examined.ofPayload bytes).offer intake.pool).1 :=
    rfl
  have unread : decode bytes = .error (.header (.rowsWithoutColumns rows.length)) := by
    rw [decode, readHeader, refused]
    rfl
  rw [reply, Examined.ofPayload, unread]
  rfl

/-- A row of as many keys as are asked for, which are numbers; none has a value. -/
def numberedRow (count : Nat) : Row :=
  Members.ofList ((List.range count).map fun number => (number.repr, .null))

variable (count : Nat)

/-- Numbers are told apart by their digits, so they can be the keys of one row. -/
theorem nodup_numbers : ((List.range count).map Nat.repr).Nodup := by
  apply List.Nodup.map _ List.nodup_range
  intro left right same
  rw [Nat.repr_eq_ofList_toDigits, Nat.repr_eq_ofList_toDigits] at same
  exact toDigits_injective (String.ofList_injective same)

/-- The numbered row has the members that it was made from, in the order of its keys. -/
theorem perm_numberedRow :
    (numberedRow count).Perm ((List.range count).map fun number => (number.repr, .null)) := by
  apply Members.perm_ofList
  rw [List.map_map]
  exact nodup_numbers count

/-- The members of a numbered row are numbers below the count, each without a value. -/
theorem exists_of_mem_numberedRow {count : Nat} {member : String × Value}
    (among : member ∈ numberedRow count) :
    ∃ number < count, member = (number.repr, .null) := by
  obtain ⟨number, inside, rfl⟩ := List.mem_map.mp ((perm_numberedRow count).mem_iff.mp among)
  exact ⟨number, List.mem_range.mp inside, rfl⟩

/-- Each key of the numbered row is a column, so there are as many columns as are wanted. -/
theorem length_columnNames_numberedRow : (columnNames [numberedRow count]).length = count := by
  have keys : (numberedRow count).keys.Perm ((List.range count).map Nat.repr) := by
    have same := (perm_numberedRow count).map Prod.fst
    rwa [List.map_map] at same
  have columns : (columnNames [numberedRow count]).Perm (numberedRow count).keys := by
    apply (List.perm_ext_iff_of_nodup (nodup_eraseDups _)
      (keys.nodup_iff.mpr (nodup_numbers count))).mpr
    intro key
    rw [List.mem_eraseDups, List.flatMap_singleton]
  rw [columns.length_eq, keys.length_eq, List.length_map, List.length_range]

/-- None of its keys is too long and none of its cells too large, so that it is encoded. -/
theorem exists_encode_numberedRow (small : count < UInt64.size) :
    ∃ bytes, encode [numberedRow count] = .ok bytes := by
  rw [exists_encode_iff]
  refine ⟨⟨(by decide : 1 ≤ rowLimit), ?_⟩, ?_⟩
  · intro row only key among
    rw [List.mem_singleton.mp only] at among
    obtain ⟨member, inside, rfl⟩ := List.mem_map.mp among
    obtain ⟨number, less, rfl⟩ := exists_of_mem_numberedRow inside
    exact Nat.le_trans (Text.utf8ByteSize_repr_le number (Nat.lt_trans less small)) (by decide)
  · intro name _
    have blank : cellsOf [numberedRow count] name = [.null] := by
      rw [cellsOf, List.map_singleton]
      cases found : Members.get? (numberedRow count) name with
      | none => rfl
      | some value =>
        obtain ⟨number, -, same⟩ := exists_of_mem_numberedRow (Members.mem_of_get? found)
        rw [(Prod.mk.inj same).2]
        rfl
    rw [blank]
    decide

/-- The numbered row is no record: it has no entity, as a number is no name of that field. -/
theorem ofRow_numberedRow : Record.ofRow (numberedRow count) = .error (.missing .entityId) := by
  have absent : Members.get? (numberedRow count) RequiredField.entityId.name = none := by
    rw [Option.eq_none_iff_forall_ne_some]
    intro value found
    obtain ⟨number, -, same⟩ := exists_of_mem_numberedRow (Members.mem_of_get? found)
    have spelled : "entity_id".toList = Nat.toDigits 10 number := by
      have name : "entity_id" = number.repr := (Prod.mk.inj same).1
      rw [name, Nat.repr_eq_ofList_toDigits, String.toList_ofList]
    have letter : 'e' ∈ Nat.toDigits 10 number := spelled ▸ (by decide)
    exact absurd (Nat.isDigit_of_mem_toDigits (by decide) (by decide) letter) (by decide)
  have entity : Record.valueOf (numberedRow count) .entityId = none := absent
  rw [Record.ofRow_eq_error_iff, Record.fault?, Record.absence?, List.findSome?_cons, entity]
  rfl

attribute [local instance] Diagnostics.plain in
/-- A row of `2 ^ 32` keys, none of which names an entity, is at fault, and it is not judged: the
reply is that the batch has a row and no column. -/
theorem Intake.handle_judges_not : ∃ bytes, encode [numberedRow UInt32.size] = .ok bytes ∧
    numberedRow UInt32.size ≠ [] ∧
    (∀ member ∈ numberedRow UInt32.size, member.2.depth ≤ greatestDepth) ∧
    Record.ofRow (numberedRow UInt32.size) = .error (.missing .entityId) ∧
    (Intake.handle ⟨⟨1, [], 1, 0, 0⟩, .fresh⟩ bytes ⟨0, 0⟩).1 =
      .rejected ⟨.codec, "invalid batch header: 1 rows declared without any columns", []⟩ ∧
    ¬Examined.Judges ⟨1, [], 1, 0, 0⟩ [numberedRow UInt32.size]
      (Intake.handle ⟨⟨1, [], 1, 0, 0⟩, .fresh⟩ bytes ⟨0, 0⟩).1 := by
  obtain ⟨bytes, encoded⟩ := exists_encode_numberedRow UInt32.size (by decide)
  have uncounted : UInt32.ofNat (columnNames [numberedRow UInt32.size]).length = 0 := by
    rw [length_columnNames_numberedRow]
    rfl
  have reply :=
    Intake.handle_of_uncounted encoded uncounted (List.cons_ne_nil _ _)
      ⟨⟨1, [], 1, 0, 0⟩, .fresh⟩ ⟨0, 0⟩
  refine ⟨bytes, encoded, ?_, ?_, ofRow_numberedRow _, reply, ?_⟩
  · intro empty
    have length := (perm_numberedRow UInt32.size).length_eq
    rw [empty, List.length_map, List.length_range] at length
    exact absurd length (by decide)
  · intro member among
    obtain ⟨number, -, rfl⟩ := exists_of_mem_numberedRow among
    exact (by decide : Value.null.depth ≤ greatestDepth)
  · intro judges
    obtain ⟨message, faults, refused⟩ :=
      judges.invalid.mpr ⟨_, List.mem_cons_self, _, ofRow_numberedRow _⟩
    rw [reply] at refused
    cases refused

end Uncounted
end LedgerIntake
