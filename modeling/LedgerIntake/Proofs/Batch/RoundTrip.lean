import LedgerIntake.Proofs.Batch.Columns
import LedgerIntake.Proofs.Json.Members

/-!
# Batches read back

A writer that took in some rows holds them and the distinct keys in first-seen order. The batch that
it writes is read as a table with one column for each key and one row for each row, whatever keys
the rows lack.
-/

namespace LedgerIntake.Batch

open Json

/-- The distinct keys of some rows in first-seen order. -/
def columnNames (rows : List Row) : List String := (rows.flatMap Members.keys).eraseDups

section Names

/-- A later occurrence changes nothing, and a first one comes last. So names in order of appearance
can be built up from the front, as a writer does. -/
theorem eraseDups_concat (seen : List String) (name : String) :
    (seen ++ [name]).eraseDups = if name ∈ seen then seen.eraseDups
      else seen.eraseDups ++ [name] := by
  have single : [name].eraseDups = [name] := by
    rw [List.eraseDups_cons, List.filter_nil, List.eraseDups_nil]
  rw [List.eraseDups_append, List.cons_removeAll, List.nil_removeAll]
  by_cases known : name ∈ seen
  · simp [known]
  · simp [known, single]

/-- Names without repetitions are without duplicates. The induction is on the number of names, since
each step drops more than one. -/
theorem nodup_eraseDups (names : List String) : names.eraseDups.Nodup := by
  induction length : names.length using Nat.strongRecOn generalizing names with
  | ind count inductionHypothesis =>
    cases names with
    | nil => exact List.Pairwise.nil
    | cons name rest =>
      rw [List.eraseDups_cons, List.nodup_cons]
      have fewer := List.length_filter_le (fun other => !other == name) rest
      rw [List.length_cons] at length
      refine ⟨?_, inductionHypothesis _ (by omega) _ rfl⟩
      intro among
      have kept := (List.mem_filter.mp (List.mem_eraseDups.mp among)).2
      simp at kept

/-- Registering keys adds those that are new, in their order, and none that is too long. The
induction is on the keys, with the columns that the earlier ones made. -/
theorem register_spec (keys seen columns : List String)
    (short : ∀ name ∈ seen, name.utf8ByteSize ≤ Writer.nameLimit)
    (registered : Writer.register seen.eraseDups keys = (columns, none)) :
    columns = (seen ++ keys).eraseDups ∧ ∀ name ∈ seen ++ keys,
      name.utf8ByteSize ≤ Writer.nameLimit := by
  induction keys generalizing seen with
  | nil =>
    cases registered
    rw [List.append_nil]
    exact ⟨rfl, short⟩
  | cons key rest inductionHypothesis =>
    have joined : seen ++ key :: rest = (seen ++ [key]) ++ rest := by simp
    rw [joined]
    rw [Writer.register] at registered
    by_cases known : key ∈ seen
    · rw [if_pos (List.mem_eraseDups.mpr known)] at registered
      apply inductionHypothesis
      · intro name member
        rcases List.mem_append.mp member with member | member
        · exact short name member
        · rw [List.mem_singleton.mp member]
          exact short key known
      · rw [eraseDups_concat, if_pos known]
        exact registered
    · rw [if_neg fun among => known (List.mem_eraseDups.mp among)] at registered
      split at registered
      · cases registered
      · next fits =>
        apply inductionHypothesis
        · intro name member
          rcases List.mem_append.mp member with member | member
          · exact short name member
          · rw [List.mem_singleton.mp member]
            exact Nat.le_of_not_lt fits
        · rw [eraseDups_concat, if_neg known]
          exact registered

end Names

/-- A writer has gathered some rows: it holds them in order and their distinct keys. -/
structure Writer.Gathered (writer : Writer) (rows : List Row) : Prop where
  held : writer.rows.toList = rows
  columns : writer.columns = columnNames rows
  short : ∀ name ∈ rows.flatMap Members.keys, name.utf8ByteSize ≤ Writer.nameLimit
  few : rows.length ≤ rowLimit

/-- A fresh writer gathered no rows, and has no columns. -/
theorem Writer.gathered_empty : empty.Gathered [] := ⟨rfl, rfl, by simp, Nat.zero_le _⟩

/-- A writer that takes in a row has gathered one more. Its columns are then the names of
all rows, this one included. -/
theorem Writer.Gathered.push {writer later : Writer} {rows : List Row}
    (gathered : writer.Gathered rows)
    {row : Row} (pushed : writer.push row = (later, .ok ())) : later.Gathered (rows ++ [row]) := by
  obtain ⟨columns, held⟩ := writer
  obtain ⟨same, named, short, few⟩ := gathered
  dsimp only at same named
  rw [Writer.push] at pushed
  dsimp only at pushed
  split at pushed
  · cases pushed
  · next room =>
    rw [named, columnNames] at pushed
    cases registered : Writer.register (rows.flatMap Members.keys).eraseDups (Members.keys row) with
    | mk names fault =>
      rw [registered] at pushed
      cases fault with
      | some fault => cases pushed
      | none =>
        cases pushed
        obtain ⟨distinct, fits⟩ := register_spec _ _ _ short registered
        have keys : (rows ++ [row]).flatMap Members.keys
          = rows.flatMap Members.keys ++ Members.keys row := by
          simp
        refine ⟨?_, ?_, ?_, ?_⟩
        · rw [Array.toList_push, same]
        · rw [columnNames, keys]
          exact distinct
        · rw [keys]
          exact fits
        · rw [← same] at few ⊢
          rw [List.length_append, List.length_singleton, Array.length_toList]
          omega

/-- A writer that takes in rows one after the other has gathered all of them. -/
theorem gathered_of_pushAll {writer later : Writer} {earlier rows : List Row}
    (gathered : writer.Gathered earlier)
    (pushed : pushAll writer rows = .ok later) : later.Gathered (earlier ++ rows) := by
  induction rows generalizing writer earlier with
  | nil =>
    cases pushed
    rw [List.append_nil]
    exact gathered
  | cons row rest inductionHypothesis =>
    rw [pushAll] at pushed
    split at pushed
    · next next taken =>
      have joined : earlier ++ row :: rest = (earlier ++ [row]) ++ rest := by simp
      rw [joined]
      exact inductionHypothesis (gathered.push taken) pushed
    · cases pushed

section Rows

/-- The cell of a column in some row. -/
def Column.cell (column : Column) (index : Nat) : Value := column.cells.getD index .null

/-- Adding columns to rows adds each column's cell to the row at its place. The induction is on the
columns, over rows that are told as a function of their index. -/
theorem foldl_columns (columns : List Column) (count : Nat)
    (full : ∀ column ∈ columns, column.cells.length = count)
    (row : Nat → Row) :
    columns.foldl
        (fun rows column =>
          List.zipWith (fun row cell => Members.insert row column.name cell) rows column.cells)
        ((List.range count).map row)
      = (List.range count).map fun index =>
        columns.foldl (fun row column => Members.insert row column.name (column.cell index))
        (row index) := by
  induction columns generalizing row with
  | nil => rfl
  | cons column rest inductionHypothesis =>
    have added : List.zipWith (fun row cell => Members.insert row column.name cell)
        ((List.range count).map row) column.cells
          = (List.range count).map fun index =>
            (row index).insert column.name (column.cell index) := by
      have length := full column List.mem_cons_self
      apply List.ext_getElem
      · simp [length]
      · intro index inside _
        have within : index < column.cells.length := by
          rw [List.length_zipWith] at inside
          omega
        simp [Column.cell, List.getElem?_eq_getElem within]
    rw [List.foldl_cons, added,
      inductionHypothesis fun other member => full other (List.mem_cons_of_mem _ member)]
    rfl

/-- The rows of a table whose columns are full: at each place the cells that the columns have there,
in the order of the columns. -/
theorem Table.rows_eq (table : Table)
    (full : ∀ column ∈ table.columns, column.cells.length = table.rowCount) :
    table.rows = (List.range table.rowCount).map fun index =>
      Members.ofList (table.columns.map fun column => (column.name, column.cell index)) := by
  have start : List.replicate table.rowCount ([] : Row)
    = (List.range table.rowCount).map fun _ => [] := by
    rw [List.map_const', List.length_range]
  rw [Table.rows, start, foldl_columns table.columns table.rowCount full]
  simp only [Members.ofList, List.foldl_map]

/-- The rows of a table are objects with a member for each column and no other,
which is the column's cell. -/
structure Table.Aligned (table : Table) : Prop where
  count : table.rows.length = table.rowCount
  cells : ∀ column ∈ table.columns, column.cells.length = table.rowCount
  keys : ∀ row ∈ table.rows, Members.Sorted row ∧
    ∀ name, name ∈ row.keys ↔ name ∈ table.columns.map Column.name
  values : ∀ (index : Nat) (row : Row), table.rows[index]? = some row →
    ∀ column ∈ table.columns, ∃ cell, column.cells[index]? = some cell ∧
      row.get? column.name = some cell

/-- A table of full columns with different names has such rows. A name finds
the one column that bears it. -/
theorem Table.aligned_of_full {table : Table}
    (full : ∀ column ∈ table.columns, column.cells.length = table.rowCount)
    (different : (table.columns.map Column.name).Nodup) : table.Aligned := by
  have rows := table.rows_eq full
  have names (index : Nat) :
      (table.columns.map fun column => (column.name, column.cell index)).map Prod.fst
      = table.columns.map Column.name := by
    rw [List.map_map]
    rfl
  refine ⟨by rw [rows, List.length_map, List.length_range], full, ?_, ?_⟩
  · intro row among
    rw [rows] at among
    obtain ⟨index, -, rfl⟩ := List.mem_map.mp among
    refine ⟨Members.sorted_ofList _, fun name => ?_⟩
    rw [Members.mem_keys_ofList, names]
  · intro index row found column among
    have inside : index < table.rowCount := by
      have within := (List.getElem?_eq_some_iff.mp found).1
      rwa [rows, List.length_map, List.length_range] at within
    rw [rows, List.getElem?_map, List.getElem?_range inside] at found
    cases found
    have cell : column.cells[index]? = some (column.cell index) := by
      have within : index < column.cells.length := (full column among).symm ▸ inside
      rw [Column.cell, List.getD_eq_getElem?_getD, List.getElem?_eq_getElem within,
        Option.getD_some]
    refine ⟨column.cell index, cell, ?_⟩
    apply Members.get?_ofList
    · rw [names]
      exact different
    · exact List.mem_map_of_mem (f := fun column => (column.name, column.cell index)) among

end Rows

/-- What a table has to be to stand for some rows: a column for each key in first-seen
order, of the type inferred for it, and a row for each row in which every column's
cell is what the type carries. -/
structure Table.Restores (table : Table) (rows : List Row) : Prop where
  names : table.columns.map Column.name = columnNames rows
  types : ∀ column ∈ table.columns, column.type = inferType (cellsOf rows column.name)
  count : table.rows.length = rows.length
  /-- Every row has exactly the columns as its keys, in order. -/
  keys : ∀ decoded ∈ table.rows, Members.Sorted decoded ∧
    ∀ name, name ∈ decoded.keys ↔ name ∈ columnNames rows
  /-- A key that a row lacks counts as null. -/
  cells : ∀ (index : Nat) (row decoded : Row), rows[index]? = some row →
    table.rows[index]? = some decoded →
    ∀ name ∈ columnNames rows, ∃ value, decoded.get? name = some value ∧
      (inferType (cellsOf rows name)).Carries ((row.get? name).getD .null) value

section Restored

variable {rows : List Row} {columns : List Column}
  (standing : List.Forall₂ (fun name column => Column.StandsFor column name (cellsOf rows name))
    (columnNames rows) columns)

include standing

/-- The columns have the names that they stand for, in the order in which names first appeared. -/
theorem names_of_standing : columns.map Column.name = columnNames rows := by
  have named : List.Forall₂ (fun (name other : String) => name = other) (columnNames rows)
      (columns.map Column.name) :=
    List.forall₂_map_right_iff.mpr (standing.imp fun _ _ stands => stands.name.symm)
  rw [List.forall₂_eq_eq_eq] at named
  exact named.symm

/-- Each column of the table stands for the cells that the rows have under its name. -/
theorem standsFor_of_mem {column : Column} (member : column ∈ columns) :
    column.StandsFor column.name (cellsOf rows column.name) := by
  obtain ⟨index, inside, rfl⟩ := List.getElem_of_mem member
  have stands := standing.get (standing.length_eq ▸ inside) inside
  have name := stands.name
  simp only [List.get_eq_getElem] at stands name
  rw [name]
  exact stands

/-- A table of the columns of some rows restores the rows: each row is found again under all names,
with null where it lacks a key. -/
theorem restores_of_columns : Table.Restores ⟨rows.length, columns⟩ rows := by
  have names := names_of_standing standing
  have length : ∀ column ∈ columns, column.cells.length = rows.length := by
    intro column member
    rw [← (standsFor_of_mem standing member).cells.length_eq, cellsOf, List.length_map]
  have aligned : Table.Aligned ⟨rows.length, columns⟩ := by
    refine Table.aligned_of_full length ?_
    rw [names]
    exact nodup_eraseDups _
  refine ⟨names, fun column member => (standsFor_of_mem standing member).type,
    aligned.count, ?_, ?_⟩
  · intro decoded member
    have keys := aligned.keys decoded member
    rwa [names] at keys
  · intro index row decoded found read name member
    rw [← names] at member
    obtain ⟨column, among, rfl⟩ := List.mem_map.mp member
    obtain ⟨value, cell, held⟩ := aligned.values index decoded read column among
    have stands := standsFor_of_mem standing among
    obtain ⟨within, same⟩ := List.getElem?_eq_some_iff.mp cell
    have inCells : index < (cellsOf rows column.name).length := stands.cells.length_eq.symm ▸ within
    have carried := stands.cells.get inCells within
    have source : (cellsOf rows column.name)[index] = (row.get? column.name).getD .null := by
      obtain ⟨_, same⟩ := List.getElem?_eq_some_iff.mp found
      simp only [cellsOf, List.getElem_map, same]
    refine ⟨value, held, ?_⟩
    rw [← same, ← source, ← stands.type]
    exact carried

end Restored

section Encoded

variable {rows : List Row} {bytes : Bytes}

/-- A batch that was written for some rows: a header and a column for each key. -/
structure WrittenAs (rows : List Row) (bytes : Bytes) (columns : List Bytes) : Prop where
  written : List.Forall₂ (fun name bytes => writeColumn name (cellsOf rows name) = .ok bytes)
    (columnNames rows) columns
  bytes : bytes
    = (Header.ofCounts (UInt32.ofNat (columnNames rows).length) (UInt32.ofNat rows.length)).encode
      ++ columns.flatten
  short : ∀ name ∈ columnNames rows, name.utf8ByteSize ≤ Writer.nameLimit
  few : rows.length ≤ rowLimit

/-- A batch that was encoded was written for its rows. All later lemmas read the bytes through this
form and never open the writer. -/
theorem writtenAs_of_encode (encoded : encode rows = .ok bytes) :
    ∃ columns, WrittenAs rows bytes columns := by
  unfold encode at encoded
  cases pushed : pushAll .empty rows with
  | error refusal =>
    rw [pushed] at encoded
    cases encoded
  | ok writer =>
    rw [pushed] at encoded
    have gathered : writer.Gathered ([] ++ rows) := gathered_of_pushAll Writer.gathered_empty pushed
    rw [List.nil_append] at gathered
    obtain ⟨held, named, short, few⟩ := gathered
    dsimp only [bind, Except.bind] at encoded
    rw [Writer.finish, held, named, ← Array.length_toList, held] at encoded
    dsimp only at encoded
    cases written : (columnNames rows).mapM fun name => writeColumn name (cellsOf rows name) with
    | error fault =>
      rw [written] at encoded
      cases encoded
    | ok columns =>
      rw [written] at encoded
      cases encoded
      refine ⟨columns, forall₂_of_mapM written, rfl, ?_, few⟩
      intro name member
      exact short name (List.mem_eraseDups.mp member)

variable {columns : List Bytes} (parts : WrittenAs rows bytes columns)

include parts

/-- A batch has more bytes than columns, so a batch that fits a message has few columns. -/
theorem length_columnNames_le_of_writtenAs : (columnNames rows).length ≤ bytes.length := by
  have least := length_flatten_columns (fun name _ => List.length_map _) parts.written
  have wide : (columnNames rows).length * 1 ≤ (columnNames rows).length
    * (columnOverhead + bitmapLength rows.length) :=
    Nat.mul_le_mul_left _ (Nat.le_add_right_of_le (by decide))
  rw [parts.bytes, List.length_append]
  omega

/-- A cursor behind the header reads as many of the columns as are
asked for, if there are so many. -/
theorem readColumns_of_writtenAs
    (shallow : ∀ row ∈ rows, ∀ member ∈ row, member.2.depth ≤ greatestDepth)
    (count : Nat) (enough : count ≤ (columnNames rows).length) :
    ∃ decoded,
      readColumns rows.length count [] ⟨headerSize, columns.flatten⟩ = .ok (decoded,
        ⟨headerSize + (columns.take count).flatten.length, (columns.drop count).flatten⟩) ∧
      List.Forall₂ (fun name column => Column.StandsFor column name (cellsOf rows name))
        ((columnNames rows).take count) decoded := by
  have different : ((columnNames rows).take count).Nodup :=
    (nodup_eraseDups _).sublist (List.take_sublist count _)
  have short : ∀ name ∈ (columnNames rows).take count, name.utf8ByteSize ≤ Writer.nameLimit :=
    fun name member => parts.short name (List.mem_of_mem_take member)
  have cells : ∀ name ∈ (columnNames rows).take count, ∀ cell ∈ cellsOf rows name,
    cell.depth ≤ greatestDepth := by
    intro name _ cell member
    obtain ⟨row, among, rfl⟩ := List.mem_map.mp member
    cases found : row.get? name with
    | none => exact Nat.zero_le _
    | some value => exact shallow row among _ (Members.mem_of_get? found)
  obtain ⟨decoded, read, standing⟩ := readColumns_written different short
    (fun name _ => List.length_map _) cells (List.forall₂_take count parts.written) headerSize
    (columns.drop count).flatten [] (by simp)
  have length : ((columnNames rows).take count).length = count := List.length_take_of_le enough
  rw [length, ← List.flatten_append, List.take_append_drop, List.reverse_nil,
    List.nil_append] at read
  exact ⟨decoded, read, standing⟩

/-- The header of a batch is read if it declares no more columns than there are,
and none only without rows. -/
theorem readHeader_of_writtenAs
    (keyed : UInt32.ofNat (columnNames rows).length = 0 → UInt32.ofNat rows.length = 0) :
    (readHeader bytes 0).1
      = .ok (Header.ofCounts (UInt32.ofNat (columnNames rows).length) (UInt32.ofNat rows.length)) ∧
      bytes.drop headerSize = columns.flatten ∧ (UInt32.ofNat rows.length).toNat = rows.length := by
  have rowCount : (UInt32.ofNat rows.length).toNat = rows.length := by
    rw [UInt32.toNat_ofNat']
    exact Nat.mod_eq_of_lt (Nat.lt_of_le_of_lt parts.few (by decide))
  have columnCount : (UInt32.ofNat (columnNames rows).length).toNat
    ≤ (columnNames rows).length := by
    rw [UInt32.toNat_ofNat']
    exact Nat.mod_le _ _
  have few : (UInt32.ofNat rows.length).toNat ≤ rowLimit := rowCount.symm ▸ parts.few
  have width := length_encode_header
    (Header.ofCounts (UInt32.ofNat (columnNames rows).length) (UInt32.ofNat rows.length)) rfl
  have decoded :=
    Header.decode_ofCounts (UInt32.ofNat (columnNames rows).length) (UInt32.ofNat rows.length)
      columns.flatten few
  have rest : bytes.drop headerSize = columns.flatten := by
    rw [parts.bytes, ← width, List.drop_left]
  have held :
      (Header.ofCounts (UInt32.ofNat (columnNames rows).length)
        (UInt32.ofNat rows.length)).leastRest
      ≤ bytes.length - headerSize := by
    have least := length_flatten_columns (fun name _ => List.length_map _) parts.written
    rw [← List.length_drop, rest]
    refine Nat.le_trans ?_ least
    rw [Header.leastRest, Header.bitmapLength, Header.ofCounts]
    dsimp only
    rw [rowCount]
    exact Nat.mul_le_mul_right _ columnCount
  rw [← parts.bytes, if_neg fun unkeyed => unkeyed.2 (keyed unkeyed.1)] at decoded
  refine ⟨?_, rest, rowCount⟩
  rw [readHeader, decoded]
  dsimp only
  rw [if_neg (Nat.not_lt.mpr held)]

/-- Reading a batch comes down to reading the columns that its header counts, and to whether
bytes are left behind them. -/
theorem decode_of_writtenAs (shallow : ∀ row ∈ rows, ∀ member ∈ row, member.2.depth ≤ greatestDepth)
    (keyed : UInt32.ofNat (columnNames rows).length = 0 → UInt32.ofNat rows.length = 0) :
    ∃ decoded,
      List.Forall₂ (fun name column => Column.StandsFor column name (cellsOf rows name))
        ((columnNames rows).take (UInt32.ofNat (columnNames rows).length).toNat) decoded ∧
      decode bytes =
        if ((columns.drop (UInt32.ofNat (columnNames rows).length).toNat).flatten).isEmpty then
          .ok ⟨rows.length, decoded⟩
        else .error (.trailingBytes
          (headerSize
            + (columns.take (UInt32.ofNat (columnNames rows).length).toNat).flatten.length)
          ((columns.drop (UInt32.ofNat (columnNames rows).length).toNat).flatten).length) := by
  have enough : (UInt32.ofNat (columnNames rows).length).toNat ≤ (columnNames rows).length := by
    rw [UInt32.toNat_ofNat']
    exact Nat.mod_le _ _
  obtain ⟨header, rest, rowCount⟩ := readHeader_of_writtenAs parts keyed
  obtain ⟨decoded, read, standing⟩ := readColumns_of_writtenAs parts shallow _ enough
  refine ⟨decoded, standing, ?_⟩
  rw [decode, header, rest]
  dsimp only [bind, Except.bind]
  rw [Header.ofCounts]
  dsimp only
  rw [rowCount, read]
  rfl

/-- A header that can count the columns is followed by all of them, so nothing trails. -/
theorem decode_of_few (shallow : ∀ row ∈ rows, ∀ member ∈ row, member.2.depth ≤ greatestDepth)
    (keyed : rows = [] ∨ columnNames rows ≠ [])
    (counted : (columnNames rows).length < UInt32.size) :
    ∃ decoded, decode bytes = .ok ⟨rows.length, decoded⟩ ∧
      List.Forall₂ (fun name column => Column.StandsFor column name (cellsOf rows name))
        (columnNames rows) decoded := by
  have count : (UInt32.ofNat (columnNames rows).length).toNat = (columnNames rows).length := by
    rw [UInt32.toNat_ofNat']
    exact Nat.mod_eq_of_lt counted
  have consistent : UInt32.ofNat (columnNames rows).length = 0 → UInt32.ofNat rows.length = 0 := by
    intro none
    rcases keyed with rfl | some
    · rfl
    · rw [none] at count
      exact absurd (List.length_eq_zero_iff.mp count.symm) some
  obtain ⟨decoded, standing, read⟩ := decode_of_writtenAs parts shallow consistent
  have columnCount := parts.written.length_eq
  rw [count, List.take_length] at standing
  rw [count, columnCount, List.drop_length, List.flatten_nil, List.isEmpty_nil, if_pos rfl] at read
  exact ⟨decoded, read, standing⟩

/-- More columns than a header can count are refused: the count wraps, and some of the columns stand
behind those that it does count. -/
theorem decode_of_many (shallow : ∀ row ∈ rows, ∀ member ∈ row, member.2.depth ≤ greatestDepth)
    (uncounted : UInt32.size ≤ (columnNames rows).length) :
    ∃ refusal, decode bytes = .error refusal := by
  by_cases consistent : UInt32.ofNat (columnNames rows).length = 0 → UInt32.ofNat rows.length = 0
  · obtain ⟨decoded, -, read⟩ := decode_of_writtenAs parts shallow consistent
    have fewer : (UInt32.ofNat (columnNames rows).length).toNat < (columnNames rows).length :=
      Nat.lt_of_lt_of_le (UInt32.toNat_lt_size _) uncounted
    have least := length_flatten_columns (fun name _ => List.length_map _)
      (List.forall₂_drop (UInt32.ofNat (columnNames rows).length).toNat parts.written)
    rw [List.length_drop] at least
    have wide :
        1 * columnOverhead
          ≤ ((columnNames rows).length - (UInt32.ofNat (columnNames rows).length).toNat)
        * (columnOverhead + bitmapLength rows.length) :=
          Nat.mul_le_mul (by omega) (Nat.le_add_right _ _)
    have left : ((columns.drop (UInt32.ofNat (columnNames rows).length).toNat).flatten).isEmpty
      = false := by
      apply List.isEmpty_eq_false_iff.mpr
      intro empty
      rw [empty, columnOverhead] at least
      simp only [columnOverhead, List.length_nil] at least wide
      omega
    rw [left, if_neg (by decide)] at read
    exact ⟨_, read⟩
  · have rowCount : (UInt32.ofNat rows.length).toNat ≤ rowLimit := by
      rw [UInt32.toNat_ofNat']
      exact Nat.le_trans (Nat.mod_le _ _) parts.few
    have refused :=
      Header.decode_ofCounts (UInt32.ofNat (columnNames rows).length) (UInt32.ofNat rows.length)
        columns.flatten rowCount
    rw [Classical.not_imp] at consistent
    rw [← parts.bytes, if_pos consistent] at refused
    exact ⟨_, by rw [decode, readHeader, refused]; rfl⟩

end Encoded

/-- Rows have a column as soon as one of them has a key, so their header is allowed. -/
theorem columnNames_ne_nil {rows : List Row} (keyed : ∃ row ∈ rows, row ≠ []) :
    columnNames rows ≠ [] := by
  obtain ⟨row, among, some⟩ := keyed
  intro empty
  obtain ⟨member, present⟩ := List.exists_mem_of_ne_nil row some
  have key : member.1 ∈ columnNames rows :=
    List.mem_eraseDups.mpr (List.mem_flatMap.mpr ⟨row, among, List.mem_map_of_mem present⟩)
  rw [empty] at key
  cases key

/-- A batch that was written is read as a table that restores its rows, whichever keys they lack.
Rows of which none has a key cannot be read, because a header may not count rows without columns.
Each block is read back as a column that stands for the cells of its name, and rows are put
together from the columns again. -/
theorem decode_encode (rows : List Row) (bytes : Bytes) (encoded : encode rows = .ok bytes)
    (keyed : rows = [] ∨ ∃ row ∈ rows, row ≠ [])
    (shallow : ∀ row ∈ rows, ∀ member ∈ row, member.2.depth ≤ greatestDepth)
    (counted : (columnNames rows).length < UInt32.size) :
    ∃ table, decode bytes = .ok table ∧ table.Restores rows := by
  obtain ⟨columns, parts⟩ := writtenAs_of_encode encoded
  have named : rows = [] ∨ columnNames rows ≠ [] := keyed.imp_right columnNames_ne_nil
  obtain ⟨decoded, read, standing⟩ := decode_of_few parts shallow named counted
  exact ⟨_, read, restores_of_columns standing⟩

/-- Two rows without a common key are read back as rows that have both, with
null where one was missing. -/
theorem decode_encode_ragged : ∃ bytes table,
    encode [[("a", .bool true)], [("b", .text "x")]] = .ok bytes ∧ decode bytes = .ok table ∧
      table.Restores [[("a", .bool true)], [("b", .text "x")]] := by
  have encoded : encode [[("a", .bool true)], [("b", .text "x")]]
      = .ok [84, 67, 66, 49, 1, 0, 0, 0, 2, 0, 0, 0, 2, 0, 0,
        0, 1, 0, 97, 1, 0, 0, 0, 2, 0, 0, 0, 1, 1, 1, 0, 98,
        4, 0, 0, 0, 6, 0, 0, 0, 2, 1, 0, 0, 0, 120] := by
    decide +kernel
  have shallow : ∀ row ∈ [[("a", Value.bool true)], [("b", .text "x")]], ∀ member ∈ row,
      member.2.depth ≤ greatestDepth := by
    simp [Value.depth]
  have counted : (columnNames [[("a", .bool true)], [("b", .text "x")]]).length
    < UInt32.size := by decide
  obtain ⟨table, read, restored⟩ :=
    decode_encode _ _ encoded (.inr ⟨_, List.mem_cons_self, List.cons_ne_nil _ _⟩) shallow counted
  exact ⟨_, table, encoded, read, restored⟩

end LedgerIntake.Batch
