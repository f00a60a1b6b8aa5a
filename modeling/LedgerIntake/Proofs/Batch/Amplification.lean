import LedgerIntake.Proofs.Batch.Decoding
import LedgerIntake.Proofs.Json.Weight
import Mathlib.Data.List.Nodup
import Mathlib.Order.Bounds.Basic
import Mathlib.Tactic.Ring

/-!
# How much larger rows are than their payload

Every row holds its own copy of every column's name, which stands in the payload once. So the rows
of a batch may be larger than the payload; but a name is shorter than 2¹⁶ bytes, a batch has at most
2²⁰ rows, and each column has at least a bit for every row. The rows are at most 349510 times as
large as the payload, and no smaller factor will do: 86 columns without values that have the longest
names and the most rows exceed it.
-/

namespace LedgerIntake.Batch

open Json

section Sizes

/-- The size of rows, where something is counted for each cell: that, and the bytes of all keys. -/
def sizeOfRows (measure : Value → Nat) (rows : List Row) : Nat :=
  (rows.map fun row => (row.map fun member => member.1.utf8ByteSize + measure member.2).sum).sum

/-- One for a cell, and its bytes if it is a text. -/
def sizeOfCell : Value → Nat
  | .text value => value.utf8ByteSize + 1
  | _ => 1

/-- A full column is its cells row by row, so a sum over rows is one over the
cells that the column holds. -/
theorem map_cell {column : Column} {count : Nat} (full : column.cells.length = count) :
    (List.range count).map column.cell = column.cells := by
  subst full
  apply List.ext_getElem
  · rw [List.length_map, List.length_range]
  · intro index _ inside
    rw [List.getElem_map, List.getElem_range, Column.cell, List.getD_eq_getElem?_getD,
      List.getElem?_eq_getElem inside, Option.getD_some]

/-- What the rows hold is counted by columns: each name once for every row, and each cell once. Sums
by rows and by columns meet here, so the bound needs only one column at a time. -/
theorem sum_columns (measure : Value → Nat) (count : Nat) (columns : List Column)
    (full : ∀ column ∈ columns, column.cells.length = count) :
    ((List.range count).map fun index =>
        (columns.map fun column => column.name.utf8ByteSize + measure (column.cell index)).sum).sum
      = (columns.map fun column => count * column.name.utf8ByteSize
        + (column.cells.map measure).sum).sum := by
  induction columns with
  | nil => simp
  | cons column rest inductionHypothesis =>
    have cells : ((List.range count).map fun index => measure (column.cell index)).sum
        = (column.cells.map measure).sum := by
      rw [← map_cell (full column List.mem_cons_self), List.map_map]
      rfl
    have names : ((List.range count).map fun _ => column.name.utf8ByteSize).sum
        = count * column.name.utf8ByteSize := by
      rw [List.map_const', List.length_range, List.sum_replicate_nat]
    simp only [List.map_cons, List.sum_cons]
    rw [List.sum_map_add, List.sum_map_add, cells, names,
      inductionHypothesis fun other member => full other (List.mem_cons_of_mem _ member)]

/-- Rows of full columns with different names hold each name once for
each row, and every cell once. -/
theorem sizeOfRows_rows (measure : Value → Nat) {table : Table}
    (full : ∀ column ∈ table.columns, column.cells.length = table.rowCount)
    (different : (table.columns.map Column.name).Nodup) : sizeOfRows measure table.rows
      = (table.columns.map fun column =>
          table.rowCount * column.name.utf8ByteSize + (column.cells.map measure).sum).sum := by
  have row (index : Nat) :
      ((Members.ofList (table.columns.map fun column => (column.name, column.cell index))).map
        fun member => member.1.utf8ByteSize + measure member.2).sum
      = (table.columns.map fun column =>
        column.name.utf8ByteSize + measure (column.cell index)).sum := by
    have names :
        ((table.columns.map fun column => (column.name, column.cell index)).map
          Prod.fst).Nodup := by
      rw [List.map_map]
      exact different
    rw [((Members.perm_ofList _ names).map _).sum_eq, List.map_map]
    rfl
  rw [sizeOfRows, table.rows_eq full, List.map_map,
    ← sum_columns measure table.rowCount table.columns full]
  exact congrArg List.sum (List.map_congr_left fun index _ => row index)

end Sizes

section Bounds

/-- A cell that is read weighs no more than its bytes. The interesting case is JSON text, whose
nested values were paid for by the characters that spell them. -/
theorem CellBytes.weight_le {type : ColumnType} {cell : Value} {bytes : Bytes}
    (written : CellBytes type cell bytes) :
    cell.weight ≤ bytes.length := by
  cases written with
  | bool value => exact Nat.le_refl _
  | int64 bytes number integer width => rw [width]; exact (by decide : 1 ≤ 8)
  | float64 bytes value finite width => rw [width]; exact (by decide : 1 ≤ 8)
  | utf8 text short =>
    rw [Value.weight, List.length_append, Bytes.length_littleEndian, Utf8.length_encode]
    omega
  | json source value short readable =>
    have bounded := weight_le_of_readBytes? readable
    rw [List.length_append, Bytes.length_littleEndian]
    omega

/-- Cells weigh no more than one for each row and the bytes of those that are present. -/
theorem CellsBytes.weight_le {type : ColumnType} {present : List Bool} {cells : List Value}
    {bytes : Bytes}
    (filled : CellsBytes type present cells bytes) :
    (cells.map Value.weight).sum ≤ present.length + bytes.length := by
  induction filled with
  | nil => exact Nat.le_refl _
  | absent rest inductionHypothesis =>
    have one : Value.null.weight = 1 := rfl
    rw [List.map_cons, List.sum_cons, one, List.length_cons]
    omega
  | present first rest inductionHypothesis =>
    have weighed := first.weight_le
    rw [List.map_cons, List.sum_cons, List.length_cons, List.length_append]
    omega

/-- How much larger than its payload a batch may be. -/
def amplification : Nat := 349510

/-- The copies of a name, and a cell for each of them, are in proportion to the name and a bit for
each of them. Both are bounded, and where they are largest the proportion is. -/
theorem mul_le_amplification {rows name bits : Nat} (few : bits ≤ 0x20000) (room : rows ≤ 8 * bits)
    (short : name ≤ 0x10000) : rows * name ≤ amplification * (name + bits + 9) := by
  rw [amplification]
  have longest : 0x80000 * bits ≤ 349510 * (0x10000 + bits + 9) := by omega
  apply Nat.le_of_mul_le_mul_left _ (by decide : 0 < 0x10000)
  calc 0x10000 * (rows * name) ≤ 0x10000 * (8 * bits * name) := by gcongr
    _ = name * (0x80000 * bits) := by ring
    _ ≤ name * (349510 * (0x10000 + bits + 9)) := by gcongr
    _ = 349510 * (0x10000 * name + name * (bits + 9)) := by ring
    _ ≤ 349510 * (0x10000 * name + 0x10000 * (bits + 9)) := by gcongr
    _ = 0x10000 * (349510 * (name + bits + 9)) := by ring

/-- A column is in proportion to its bytes. Its name is copied for every row, of which there are
few, and its cells weigh no more than their bytes. -/
theorem ColumnBytes.size_le {rows : Nat} {column : Column} {bytes : Bytes}
    (written : ColumnBytes rows column bytes)
    (few : rows ≤ rowLimit) :
    rows * column.name.utf8ByteSize + (column.cells.map Value.weight).sum
      ≤ amplification * bytes.length := by
  obtain ⟨body, short, small, ⟨bitmap, values, width, filled⟩⟩ := written
  have cells := filled.weight_le
  rw [List.length_map, List.length_range] at cells
  rw [rowLimit] at few
  have copies : rows * (column.name.utf8ByteSize + 1)
      ≤ amplification * (column.name.utf8ByteSize + 1 + bitmap.length + 9) := by
    rw [bitmapLength] at width
    exact mul_le_amplification (by omega) (by omega) (Nat.succ_le_of_lt short)
  simp only [List.length_append, Bytes.length_littleEndian, List.length_cons, List.length_nil,
    Utf8.length_encode]
  rw [amplification] at copies ⊢
  rw [Nat.mul_add, Nat.mul_one] at copies
  omega

/-- Columns are in proportion to their bytes, since each of them is to its own. -/
theorem size_columns_le {rows : Nat} {columns : List Column} {blocks : List Bytes}
    (few : rows ≤ rowLimit)
    (written : List.Forall₂ (ColumnBytes rows) columns blocks) :
    (columns.map fun column => rows * column.name.utf8ByteSize
      + (column.cells.map Value.weight).sum).sum
      ≤ amplification * blocks.flatten.length := by
  induction written with
  | nil => exact Nat.zero_le _
  | cons first others inductionHypothesis =>
    have bounded := first.size_le few
    rw [List.map_cons, List.sum_cons, List.flatten_cons, List.length_append, Nat.mul_add]
    omega

/-- The rows of a payload, with all that is nested in their cells, are in proportion to it. -/
theorem sizeOfRows_weight_le {payload : Bytes} {table : Table}
    (decoded : decode payload = .ok table) :
    sizeOfRows Value.weight table.rows ≤ amplification * payload.length := by
  have holds := holds_of_decode decoded
  obtain ⟨blocks, written, whole⟩ := holds.written
  rw [sizeOfRows_rows _ holds.aligned.cells holds.different]
  refine Nat.le_trans (size_columns_le holds.few written) (Nat.mul_le_mul_left _ ?_)
  rw [whole, List.length_append]
  exact Nat.le_add_left _ _

/-- A cell weighs at least what it is counted for by itself; the weight counts
what is nested in it besides. -/
theorem sizeOfCell_le_weight (cell : Value) : sizeOfCell cell ≤ cell.weight := by
  cases cell with
  | text value => exact Nat.le_refl _
  | array items => exact Nat.le_add_left _ _
  | object members => exact Nat.le_add_left _ _
  | _ => exact Nat.le_refl _

/-- A measure that is nowhere less gives a size that is not less. -/
theorem sizeOfRows_mono {measure other : Value → Nat} (less : ∀ cell, measure cell ≤ other cell)
    (rows : List Row) :
    sizeOfRows measure rows ≤ sizeOfRows other rows :=
  List.sum_le_sum fun _ _ => List.sum_le_sum fun member _ => Nat.add_le_add_left (less member.2) _

end Bounds

section Blank

variable (rows : Nat)

/-- A column without values. -/
def blank (name : String) : Column := ⟨name, .null, List.replicate rows .null⟩

/-- A bitmap of zeros tells of no row that it has a cell. -/
theorem presentAt_replicate (width row : Nat) : presentAt (List.replicate width 0) row = false := by
  have zero : (List.replicate width (0 : UInt8)).getD (row / 8) 0 = 0 := by
    rw [List.getD_eq_getElem?_getD, List.getElem?_replicate]
    split <;> rfl
  rw [presentAt, zero]
  exact Nat.zero_testBit _

/-- Cells without values take no bytes, whatever their type. -/
theorem cellsBytes_replicate (type : ColumnType) :
    CellsBytes type (List.replicate rows false) (List.replicate rows .null) [] := by
  induction rows with
  | zero => exact .nil
  | succ rows inductionHypothesis => exact .absent inductionHypothesis

/-- A column without values takes its name, its bitmap and its fixed
parts, and nothing for its cells. -/
theorem exists_columnBytes_blank {name : String} (short : name.utf8ByteSize < 1 <<< 16)
    (few : rows ≤ rowLimit) :
    ∃ bytes, ColumnBytes rows (blank rows name) bytes ∧
      bytes.length = columnOverhead + name.utf8ByteSize + bitmapLength rows := by
  have bits : (List.range rows).map (presentAt (List.replicate (bitmapLength rows) 0))
    = List.replicate rows false := by
    rw [List.map_congr_left fun row _ => presentAt_replicate (bitmapLength rows) row,
      List.map_const', List.length_range]
  have filled :
      BodyBytes .null rows (List.replicate rows .null)
        (List.replicate (bitmapLength rows) 0 ++ []) := by
    refine .mk _ [] (List.length_replicate ..) ?_
    rw [bits]
    exact cellsBytes_replicate rows .null
  have small : (List.replicate (bitmapLength rows) (0 : UInt8) ++ []).length < sizeLimit := by
    rw [List.append_nil, List.length_replicate]
    exact bitmapLength_lt_sizeLimit few
  refine ⟨_, .mk (blank rows name) _ short small filled, ?_⟩
  simp only [List.length_append, Bytes.length_littleEndian, List.length_cons, List.length_nil,
    List.length_replicate, Utf8.length_encode, columnOverhead, blank]
  omega

/-- Columns without values are carried by a payload that takes these bytes for each of them. -/
theorem exists_decode_blank {names : List String} (few : rows ≤ rowLimit) (keyed : names ≠ [])
    (different : names.Nodup) (counted : names.length < UInt32.size)
    (short : ∀ name ∈ names, name.utf8ByteSize < 1 <<< 16) :
    ∃ payload, decode payload = .ok ⟨rows, names.map (blank rows)⟩ ∧
      payload.length = headerSize +
        (names.map fun name => columnOverhead + name.utf8ByteSize + bitmapLength rows).sum := by
  have blocks : ∃ blocks, List.Forall₂ (ColumnBytes rows) (names.map (blank rows)) blocks ∧
      blocks.flatten.length
        = (names.map fun name => columnOverhead + name.utf8ByteSize + bitmapLength rows).sum := by
    clear keyed different counted
    induction names with
    | nil => exact ⟨[], .nil, rfl⟩
    | cons name rest inductionHypothesis =>
      obtain ⟨block, first, length⟩ :=
        exists_columnBytes_blank rows (short name List.mem_cons_self) few
      obtain ⟨blocks, others, lengths⟩ :=
        inductionHypothesis fun other member => short other (List.mem_cons_of_mem _ member)
      refine ⟨block :: blocks, .cons first others, ?_⟩
      rw [List.flatten_cons, List.length_append, length, lengths, List.map_cons, List.sum_cons]
  obtain ⟨blocks, written, length⟩ := blocks
  have columns : ((names.map (blank rows)).map Column.name) = names := by
    rw [List.map_map]
    exact List.map_id names
  refine ⟨_, decode_of_holds ⟨few, ?_, ?_, ?_, blocks, written, rfl⟩, ?_⟩
  · exact fun none => absurd (List.map_eq_nil_iff.mp none) keyed
  · exact columns.symm ▸ different
  · rwa [List.length_map]
  · have mark : (Utf8.encode "TCB1").length = 4 := by decide
    simp only [List.length_append, Bytes.length_littleEndian, mark, length, headerSize]

/-- Rows of columns without values hold each name as often as there are rows,
and one byte for each null. -/
theorem sizeOfRows_blank {names : List String} (different : names.Nodup) :
    sizeOfRows sizeOfCell (Table.rows ⟨rows, names.map (blank rows)⟩)
      = (names.map fun name => rows * (name.utf8ByteSize + 1)).sum := by
  rw [sizeOfRows_rows, List.map_map]
  · refine congrArg List.sum (List.map_congr_left fun name _ => ?_)
    show rows * name.utf8ByteSize + ((List.replicate rows Value.null).map sizeOfCell).sum = _
    rw [List.map_replicate, List.sum_replicate_nat, Nat.mul_add]
    rfl
  · intro column among
    obtain ⟨name, -, rfl⟩ := List.mem_map.mp among
    exact List.length_replicate
  · rw [List.map_map]
    exact (List.map_id names).symm ▸ different

/-- Names of the greatest length that differ in their first letter. -/
def longName (index : Nat) : String :=
  String.ofList (Char.ofNat (0x21 + index) :: List.replicate 0xfffe 'a')

/-- Each of the long names is as long as a name may be. -/
theorem utf8ByteSize_longName {index : Nat} (ascii : index < 86) :
    (longName index).utf8ByteSize = 0xffff := by
  have first : (Char.ofNat (0x21 + index)).utf8Size = 1 :=
    (by decide : ∀ index : Fin 86, (Char.ofNat (0x21 + index.val)).utf8Size = 1) ⟨index, ascii⟩
  rw [longName, Text.utf8ByteSize_ofList_cons, first, Text.utf8ByteSize_replicate _ _ (by decide)]

/-- The long names differ in their first letter, so a table may have them all. -/
theorem nodup_longNames : ((List.range 86).map longName).Nodup := by
  have first (index : Nat) : (longName index).toList.headD 'a' = Char.ofNat (0x21 + index) := by
    rw [longName, String.toList_ofList, List.headD_cons]
  have letters : (List.range 86).map (fun index => (Char.ofNat (0x21 + index)).toNat)
    = List.range' 0x21 86 := by
    decide
  refine List.Nodup.of_map (fun name => (name.toList.headD 'a').toNat) ?_
  rw [List.map_map]
  have same := (List.map_congr_left fun index _ => congrArg Char.toNat (first index)).trans letters
  exact same.symm ▸ List.nodup_range'

end Blank

/-- The rows of a payload that is decoded, with a copy of every column's name in each, are at most
so many times as large as the payload, and this is the least factor. It stays a bound if everything
that is nested in the cells is counted as well. The bound is taken column by column, since a name is
copied for every row and a cell is paid for once. A table without values whose names are as long as
they may be leaves no smaller factor. -/
theorem isLeast_amplification :
    IsLeast {factor | ∀ payload table, decode payload = .ok table →
      sizeOfRows sizeOfCell table.rows ≤ factor * payload.length} amplification ∧
    ∀ payload table, decode payload = .ok table →
      sizeOfRows Value.weight table.rows ≤ amplification * payload.length := by
  refine ⟨⟨fun payload table decoded => ?_, fun factor bounds => ?_⟩, fun payload table =>
    sizeOfRows_weight_le⟩
  · exact Nat.le_trans (sizeOfRows_mono sizeOfCell_le_weight _) (sizeOfRows_weight_le decoded)
  · have sizes (name : String) (among : name ∈ (List.range 86).map longName) :
        name.utf8ByteSize = 0xffff := by
      obtain ⟨index, inside, rfl⟩ := List.mem_map.mp among
      exact utf8ByteSize_longName (List.mem_range.mp inside)
    obtain ⟨payload, decoded, length⟩ :=
      exists_decode_blank rowLimit (Nat.le_refl _) (by simp) nodup_longNames
        (by simp [UInt32.size]) fun name among => by rw [sizes name among]; decide
    have bounded := bounds payload _ decoded
    rw [sizeOfRows_blank rowLimit nodup_longNames, length,
      List.map_congr_left fun name among =>
        congrArg (fun size => rowLimit * (size + 1)) (sizes name among),
      List.map_congr_left fun name among =>
        congrArg (fun size => columnOverhead + size + bitmapLength rowLimit) (sizes name among),
          List.map_const',
      List.map_const', List.sum_replicate_nat, List.sum_replicate_nat,
        List.length_map, List.length_range] at bounded
    simp only [rowLimit, columnOverhead, bitmapLength, headerSize] at bounded
    rw [amplification]
    omega

end LedgerIntake.Batch
