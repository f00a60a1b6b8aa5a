import LedgerIntake.Proofs.Batch.Grammar
import LedgerIntake.Proofs.Batch.RoundTrip

/-!
# Payloads that decode

A payload decodes to a table if and only if it consists of a header with the table's counts and of
the bytes of the table's columns, of which no two have one name, and of nothing else. The comparison
of the payload's length with what the header declares, before any column is read, refuses no such
payload. The rows of the table are objects that have a member for each column and nothing else.
-/

namespace LedgerIntake.Batch

open Json

section Columns

variable {cursor later : Cursor} {rows : Nat}

/-- A column has a cell for each row, because its body has. -/
theorem ColumnBytes.full {column : Column} {bytes : Bytes}
    (written : ColumnBytes rows column bytes) :
    column.cells.length = rows := by
  obtain ⟨body, short, small, filled⟩ := written
  exact filled.length.1

/-- The bytes of a column take at least its fixed parts and a bit for each row. -/
theorem ColumnBytes.length_le {column : Column} {bytes : Bytes}
    (written : ColumnBytes rows column bytes) :
    columnOverhead + bitmapLength rows ≤ bytes.length := by
  obtain ⟨body, short, small, filled⟩ := written
  have least := filled.length.2
  simp only [List.length_append, Bytes.length_littleEndian, List.length_cons, List.length_nil,
    columnOverhead]
  omega

/-- Each type has one byte, so the byte that was read is the one that is written. -/
theorem tag_of_ofTag? {tag : UInt8} {type : ColumnType}
    (found : ColumnType.ofTag? tag = some type) :
    type.tag = tag :=
  of_decide_eq_true (List.find?_some (p := fun type : ColumnType => decide (type.tag = tag)) found)

/-- What stands between the name of a column and its body: the type, three zero bytes
and the length of the body. -/
theorem trailer_eq {trailer : Bytes} {type : ColumnType} (eight : trailer.length = 8)
    (reserved : (trailer.drop 1).take 3 = [0, 0, 0])
    (typed : ColumnType.ofTag? (trailer.headD 0) = some type) :
    trailer = [type.tag, 0, 0, 0] ++ Bytes.littleEndian 4
    (Bytes.ofLittleEndian (trailer.drop 4)) := by
  match trailer, eight with
  | first :: second :: third :: fourth :: rest, eight =>
    have four : rest.length = 4 := by simpa using eight
    have length := Bytes.littleEndian_ofLittleEndian rest
    rw [four] at length
    rw [tag_of_ofTag? typed]
    show first :: second :: third :: fourth :: rest
      = first :: 0 :: 0 :: 0 :: Bytes.littleEndian 4 (Bytes.ofLittleEndian rest)
    cases reserved
    rw [length]

/-- The bytes of a column in front of its body: its name behind its length, its type, three zero
bytes, and the length of the body. -/
def columnFront (name : String) (type : ColumnType) (size : Nat) : Bytes :=
  Bytes.littleEndian 2 name.utf8ByteSize ++ (Utf8.encode name
    ++ ([type.tag, 0, 0, 0] ++ Bytes.littleEndian 4 size))

/-- What stands in front of a body: the length of a name, the name, and
eight bytes of type and size. -/
theorem length_columnFront (name : String) (type : ColumnType) (size : Nat) :
    (columnFront name type size).length = 2 + name.utf8ByteSize + 8 := by
  simp only [columnFront, List.length_append, Bytes.length_littleEndian, Utf8.length_encode,
    List.length_cons, List.length_nil]
  omega

/-- A column that is returned was passed: front and body stand in the bytes, in the
form in which they are written. -/
theorem columnBytes_of_readColumn {column : Column}
    (read : readColumn rows cursor = .ok (column, later)) :
    ∃ bytes, ColumnBytes rows column bytes ∧ cursor.Passes bytes later := by
  obtain ⟨⟨nameLength, behindLength⟩, counted, afterLength⟩ := bind_eq_ok_iff.mp read
  obtain ⟨short, first⟩ := Cursor.exists_bytes_iff.mp (Cursor.number_eq_ok_iff.mp counted)
  obtain ⟨⟨nameBytes, behindName⟩, taken, afterName⟩ := bind_eq_ok_iff.mp afterLength
  obtain ⟨rfl, second⟩ := Cursor.take_eq_ok_iff.mp taken
  clear afterLength
  dsimp only at afterName
  split at afterName
  · cases afterName
  · next name decoded =>
    obtain ⟨⟨trailer, behindTrailer⟩, taken, afterTrailer⟩ := bind_eq_ok_iff.mp afterName
    obtain ⟨eight, third⟩ := Cursor.take_eq_ok_iff.mp taken
    dsimp only at afterTrailer
    split at afterTrailer
    · cases afterTrailer
    · next reserved =>
      split at afterTrailer
      · cases afterTrailer
      · next type typed =>
        obtain ⟨⟨body, last⟩, taken, afterBody⟩ := bind_eq_ok_iff.mp afterTrailer
        obtain ⟨length, fourth⟩ := Cursor.take_eq_ok_iff.mp taken
        obtain ⟨cells, filled, returned⟩ := bind_eq_ok_iff.mp afterBody
        cases returned
        rw [Utf8.decode?_eq_some_iff] at decoded
        subst decoded
        rw [Utf8.length_encode] at short first
        have small := Bytes.ofLittleEndian_lt (trailer.drop 4)
        rw [List.length_drop, eight] at small
        rw [trailer_eq eight (Decidable.not_not.mp reserved) typed, ← length] at third
        rw [← length] at small
        refine ⟨_, .mk ⟨name, type, cells⟩ body short small (readBody_eq_ok_iff.mp filled), ?_⟩
        rw [← List.append_assoc [type.tag, 0, 0, 0]]
        exact first.append (second.append (third.append fourth))

/-- Behind a sound front, a column is its body: as many bytes as the front tells are
taken, and read by themselves. -/
theorem readColumn_of_front {name : String} {type : ColumnType} {size : Nat}
    (fits : name.utf8ByteSize < 1 <<< 16)
    (small : size < sizeLimit) (passes : cursor.Passes (columnFront name type size) later) :
    readColumn rows cursor = later.take size >>= fun (body, last) =>
      readBody name type rows ⟨later.offset, body⟩ >>= fun cells => pure
      (⟨name, type, cells⟩, last) := by
  obtain ⟨behindLength, first, passes⟩ := (Cursor.passes_append_iff _ _).mp passes
  obtain ⟨behindName, second, third⟩ := (Cursor.passes_append_iff _ _).mp passes
  have eight : ([type.tag, 0, 0, 0] ++ Bytes.littleEndian 4 size).length = 8 := by
    rw [List.length_append, Bytes.length_littleEndian]
    rfl
  have counted := Cursor.number_eq_ok_iff.mpr (Cursor.exists_bytes_iff.mpr ⟨fits, first⟩)
  have named := Cursor.take_eq_ok_iff.mpr ⟨Utf8.length_encode name, second⟩
  have trailed := Cursor.take_eq_ok_iff.mpr ⟨eight, third⟩
  have declared :
      Bytes.ofLittleEndian (([type.tag, 0, 0, 0] ++ Bytes.littleEndian 4 size).drop 4) = size :=
    Bytes.ofLittleEndian_littleEndian 4 size small
  have tag : ([type.tag, 0, 0, 0] ++ Bytes.littleEndian 4 size).headD 0 = type.tag := rfl
  rw [readColumn, counted]
  show (behindLength.take name.utf8ByteSize >>= _) = _
  rw [named]
  dsimp only [bind, Except.bind]
  rw [Utf8.decode?_encode]
  dsimp only
  rw [trailed]
  dsimp only
  rw [if_neg (by simp), tag, ColumnType.ofTag_tag, declared]

/-- A column whose bytes stand there is returned. Its front is passed first, and
then its body holds the cells. -/
theorem readColumn_of_columnBytes {column : Column} {bytes : Bytes}
    (written : ColumnBytes rows column bytes)
    (passes : cursor.Passes bytes later) : readColumn rows cursor = .ok (column, later) := by
  obtain ⟨body, short, small, filled⟩ := written
  have whole : Bytes.littleEndian 2 column.name.utf8ByteSize ++ (Utf8.encode column.name
      ++ ([column.type.tag, 0, 0, 0] ++ (Bytes.littleEndian 4 body.length ++ body)))
        = columnFront column.name column.type body.length ++ body := by
    simp only [columnFront, List.append_assoc]
  rw [whole] at passes
  obtain ⟨behindFront, front, behind⟩ := (Cursor.passes_append_iff _ _).mp passes
  rw [readColumn_of_front short small front]
  refine bind_eq_ok_iff.mpr ⟨_, Cursor.take_eq_ok_iff.mpr ⟨rfl, behind⟩, ?_⟩
  exact bind_eq_ok_iff.mpr ⟨_, readBody_eq_ok_iff.mpr filled, rfl⟩

/-- A column is returned exactly if its bytes stand there. Callers use this form, and never look
into the reader of columns. -/
theorem readColumn_eq_ok_iff {column : Column} : readColumn rows cursor = .ok (column, later) ↔
    ∃ bytes, ColumnBytes rows column bytes ∧ cursor.Passes bytes later := by
  constructor
  · exact columnBytes_of_readColumn
  · rintro ⟨bytes, written, passes⟩
    exact readColumn_of_columnBytes written passes

/-- A column is read in front of the others, and its name is compared before these are read. -/
theorem readColumns_succ (count : Nat) (read : List Column) (cursor : Cursor) :
    readColumns rows (count + 1) read cursor = readColumn rows cursor >>= fun (column, later) =>
      if read.any fun earlier => earlier.name = column.name then
        .error (.duplicateColumn column.name)
      else readColumns rows count (column :: read) later := by
  rw [readColumns]
  cases readColumn rows cursor <;> rfl

/-- Columns are returned exactly if the bytes of so many columns stand there, none of which has the
name of another one or of one that was read before. -/
theorem readColumns_eq_ok_iff {count : Nat} {read all : List Column} :
    readColumns rows count read cursor = .ok (all, later) ↔
      ∃ columns blocks, all = read.reverse ++ columns ∧
      columns.length = count ∧ List.Forall₂ (ColumnBytes rows) columns blocks ∧
      (columns.map Column.name).Nodup ∧
      (∀ column ∈ columns, ∀ earlier ∈ read, earlier.name ≠ column.name) ∧
      cursor.Passes blocks.flatten later := by
  induction count generalizing cursor read with
  | zero =>
    constructor
    · intro returned
      cases returned
      exact ⟨[], [], (List.append_nil _).symm, rfl, .nil, .nil, by simp,
        Cursor.passes_nil_iff.mpr rfl⟩
    · rintro ⟨columns, blocks, rfl, none, written, -, -, passes⟩
      rw [List.length_eq_zero_iff] at none
      subst none
      cases written
      rw [Cursor.passes_nil_iff.mp passes, List.append_nil]
      rfl
  | succ count inductionHypothesis =>
    rw [readColumns]
    constructor
    · intro returned
      split at returned
      · cases returned
      · next column middle first =>
        split at returned
        · cases returned
        · next fresh =>
          obtain ⟨block, written, front⟩ := readColumn_eq_ok_iff.mp first
          obtain ⟨columns, blocks, rfl, length, others, different, unread, behind⟩ :=
            inductionHypothesis.mp returned
          refine ⟨column :: columns, block :: blocks, by simp,
            congrArg Nat.succ length, .cons written others, ?_, ?_,
            front.append behind⟩
          · refine List.nodup_cons.mpr ⟨?_, different⟩
            intro among
            obtain ⟨other, present, same⟩ := List.mem_map.mp among
            exact unread other present column List.mem_cons_self same.symm
          · intro other among earlier present
            rcases List.mem_cons.mp among with rfl | among
            · intro same
              exact fresh (List.any_eq_true.mpr ⟨earlier, present, decide_eq_true same⟩)
            · exact unread other among earlier (List.mem_cons_of_mem _ present)
    · rintro ⟨_, _, rfl, length, written, different, unread, passes⟩
      cases written with
      | nil => cases length
      | @cons column block columns blocks first others =>
        obtain ⟨middle, front, behind⟩ := (Cursor.passes_append_iff _ _).mp passes
        obtain ⟨fresh, different⟩ := List.nodup_cons.mp different
        rw [readColumn_eq_ok_iff.mpr ⟨block, first, front⟩]
        dsimp only
        rw [if_neg]
        · refine inductionHypothesis.mpr
            ⟨columns, blocks, by simp, Nat.succ.inj length, others, different, ?_, behind⟩
          intro other among earlier present
          rcases List.mem_cons.mp present with rfl | present
          · intro same
            exact fresh (same ▸ List.mem_map_of_mem among)
          · exact unread other (List.mem_cons_of_mem _ among) earlier present
        · intro known
          obtain ⟨earlier, present, same⟩ := List.any_eq_true.mp known
          exact unread column List.mem_cons_self earlier present (of_decide_eq_true same)

/-- Columns take at least what a header declares for them, so the check of the header refuses
no batch that could be read. -/
theorem length_le_of_columnBytes {columns : List Column} {blocks : List Bytes}
    (written : List.Forall₂ (ColumnBytes rows) columns blocks) :
    columns.length * (columnOverhead + bitmapLength rows) ≤ blocks.flatten.length := by
  induction written with
  | nil => exact Nat.le_of_eq (Nat.zero_mul _)
  | cons first others inductionHypothesis =>
    have least := first.length_le
    rw [List.length_cons, Nat.succ_mul, List.flatten_cons, List.length_append]
    omega

end Columns

section Headers

/-- The number in a field of a byte string has the bytes of the field, and fits its width. -/
theorem littleEndian_fieldAt {bytes : Bytes} {offset width : Nat}
    (inside : offset + width ≤ bytes.length) :
    Bytes.littleEndian width (Header.fieldAt bytes offset width) = (bytes.drop offset).take width ∧
      Header.fieldAt bytes offset width < 1 <<< (8 * width) := by
  have length : ((bytes.drop offset).take width).length = width := by
    rw [List.length_take, List.length_drop]
    omega
  have same := Bytes.littleEndian_ofLittleEndian ((bytes.drop offset).take width)
  have bounded := Bytes.ofLittleEndian_lt ((bytes.drop offset).take width)
  rw [length] at same bounded
  exact ⟨same, bounded⟩

/-- A string of sixteen bytes is its fields, one behind the other. -/
theorem fields_of_length {front : Bytes} (whole : front.length = headerSize) :
    front = front.take 4 ++ Bytes.littleEndian 2 (Header.fieldAt front 4 2)
      ++ Bytes.littleEndian 2 (Header.fieldAt front 6 2) ++ Bytes.littleEndian 4
      (Header.fieldAt front 8 4)
      ++ Bytes.littleEndian 4 (Header.fieldAt front 12 4) := by
  rw [headerSize] at whole
  rw [(littleEndian_fieldAt (by omega)).1, (littleEndian_fieldAt (by omega)).1,
    (littleEndian_fieldAt (by omega)).1, (littleEndian_fieldAt (by omega)).1]
  rw [← List.take_add, ← List.take_add, ← List.take_add, ← List.take_add,
    List.take_of_length_le (by omega)]

/-- The counts that a batch may have: not too many rows, and none without a column. -/
def Header.Allowed (columnCount rowCount : UInt32) : Prop :=
  rowCount.toNat ≤ rowLimit ∧ (columnCount = 0 → rowCount = 0)

/-- A payload without a complete header is empty or truncated, and the
refusal tells how much is there. -/
theorem Header.decode_of_short {payload : Bytes} (short : payload.length < headerSize) :
    decode payload =
      .error (if payload.isEmpty then .empty else .truncated 0 headerSize payload.length) := by
  rw [decode]
  dsimp only
  rw [List.take_of_length_le (Nat.le_of_lt short), if_pos short]
  split <;> rfl

/-- A header is returned exactly if the bytes of one with counts that are allowed stand in front.
The tests of the fields are gone through in their order. -/
theorem Header.decode_eq_ok_iff {payload : Bytes} {header : Header} : decode payload = .ok header ↔
    Allowed header.columnCount header.rowCount ∧
      header = ofCounts header.columnCount header.rowCount ∧
      payload = header.encode ++ payload.drop headerSize := by
  constructor
  · intro decoded
    unfold decode at decoded
    dsimp only at decoded
    split at decoded
    · cases decoded
    split at decoded
    · cases decoded
    next long =>
    have whole : (payload.take headerSize).length = headerSize :=
      Nat.le_antisymm (List.length_take_le _ _) (Nat.le_of_not_lt long)
    split at decoded
    · cases decoded
    next magic =>
    split at decoded
    · cases decoded
    next version =>
    split at decoded
    · cases decoded
    next flags =>
    split at decoded
    · cases decoded
    next few =>
    split at decoded
    · cases decoded
    next keyed =>
    cases decoded
    refine ⟨⟨Nat.le_of_not_lt few, ?_⟩, ?_, ?_⟩
    · intro none
      exact Decidable.not_not.mp fun some => keyed ⟨none, some⟩
    · rw [ofCounts, ← Decidable.not_not.mp magic, ← Decidable.not_not.mp version,
        ← Decidable.not_not.mp flags]
    · conv_lhs => rw [← List.take_append_drop headerSize payload, fields_of_length whole]
      have long : (payload.take headerSize).length = 16 := whole
      rw [encode, UInt16.toNat_ofNat_of_lt' (littleEndian_fieldAt (by omega)).2,
        UInt16.toNat_ofNat_of_lt' (littleEndian_fieldAt (by omega)).2,
        UInt32.toNat_ofNat_of_lt' (littleEndian_fieldAt (by omega)).2,
        UInt32.toNat_ofNat_of_lt' (littleEndian_fieldAt (by omega)).2]
  · rintro ⟨⟨few, keyed⟩, same, split⟩
    rw [split, same, decode_ofCounts _ _ _ few, if_neg]
    rintro ⟨none, some⟩
    exact some (keyed none)

end Headers

section Payloads

/-- What a payload has to be to hold a table: a header with its counts
and the bytes of its columns. -/
structure Holds (payload : Bytes) (table : Table) : Prop where
  few : table.rowCount ≤ rowLimit
  keyed : table.columns = [] → table.rowCount = 0
  different : (table.columns.map Column.name).Nodup
  counted : table.columns.length < UInt32.size
  written : ∃ blocks, List.Forall₂ (ColumnBytes table.rowCount) table.columns blocks ∧
    payload = Utf8.encode "TCB1" ++ Bytes.littleEndian 2 1 ++ Bytes.littleEndian 2 0
      ++ Bytes.littleEndian 4 table.columns.length ++ Bytes.littleEndian 4 table.rowCount
        ++ blocks.flatten

variable {payload : Bytes} {table : Table}

/-- A header is handed on exactly if the payload is long enough for the columns that it declares. -/
theorem readHeader_eq_ok_iff {header : Header} : (readHeader payload 0).1 = .ok header ↔
    Header.decode payload = .ok header ∧ header.leastRest ≤ payload.length - headerSize := by
  rw [readHeader]
  cases decoded : Header.decode payload with
  | error refusal =>
    constructor
    · intro refused
      cases refused
    · rintro ⟨refused, -⟩
      cases refused
  | ok found =>
    dsimp only
    split
    · next short =>
      constructor
      · intro refused
        cases refused
      · rintro ⟨same, enough⟩
        cases same
        exact absurd short (Nat.not_lt.mpr enough)
    · next enough =>
      constructor
      · intro same
        cases same
        exact ⟨rfl, Nat.le_of_not_lt enough⟩
      · rintro ⟨same, -⟩
        exact same

/-- The bytes of a header: the mark, the version, the flags and the two counts. -/
theorem encode_ofCounts (columnCount rowCount : UInt32) :
    (Header.ofCounts columnCount rowCount).encode
    = Utf8.encode "TCB1" ++ Bytes.littleEndian 2 1 ++ Bytes.littleEndian 2 0
      ++ Bytes.littleEndian 4 columnCount.toNat ++ Bytes.littleEndian 4 rowCount.toNat := by
  have magic : Utf8.encode "TCB1" = Batch.magic := by decide
  rw [magic]
  rfl

/-- The table at the front of a payload, and where the bytes behind it begin. -/
def readTable (payload : Bytes) : Except BatchError (Table × Cursor) := do
  let header ← (readHeader payload 0).1
  let (columns, last) ←
    readColumns header.rowCount.toNat header.columnCount.toNat
      [] ⟨headerSize, payload.drop headerSize⟩
  return (⟨header.rowCount.toNat, columns⟩, last)

/-- A payload is decoded to the table at its front, unless bytes are left behind it. -/
theorem decode_eq_readTable (payload : Bytes) :
    decode payload = readTable payload >>= fun (table, last) =>
    if last.rest.isEmpty then .ok table
      else .error (.trailingBytes last.offset last.rest.length) := by
  rw [decode, readTable]
  cases (readHeader payload 0).1 with
  | error refusal => rfl
  | ok header =>
    dsimp only [bind, Except.bind]
    cases readColumns header.rowCount.toNat header.columnCount.toNat
      [] ⟨headerSize, payload.drop headerSize⟩ with
    | error refusal => rfl
    | ok read => rfl

/-- The bytes in front of those that are left hold the table. The offset of the
cursor tells how many these are. -/
theorem holds_of_readTable {last : Cursor} (read : readTable payload = .ok (table, last)) :
    ∃ front, Holds front table ∧ payload = front ++ last.rest ∧ last.offset = front.length := by
  obtain ⟨header, front, afterHeader⟩ := bind_eq_ok_iff.mp read
  obtain ⟨⟨columns, _⟩, read, returned⟩ := bind_eq_ok_iff.mp afterHeader
  cases returned
  obtain ⟨⟨few, keyed⟩, same, whole⟩ := Header.decode_eq_ok_iff.mp (readHeader_eq_ok_iff.mp front).1
  obtain ⟨_, blocks, rfl, length, written, different, -, passes⟩ := readColumns_eq_ok_iff.mp read
  have counted := header.columnCount.toNat_lt_size
  rw [← length] at counted
  have fixed := encode_ofCounts header.columnCount header.rowCount
  have size := length_encode_header (Header.ofCounts header.columnCount header.rowCount) rfl
  rw [← same] at fixed size
  refine ⟨header.encode ++ blocks.flatten,
    ⟨few, ?_, different, counted, blocks, written, ?_⟩, ?_, ?_⟩
  · rintro rfl
    have none : header.columnCount = 0 := UInt32.toNat_inj.mp length.symm
    rw [keyed none]
    rfl
  · rw [fixed, ← length]
  · rw [List.append_assoc, ← passes.rest]
    exact whole
  · rw [passes.offset, List.length_append, size]

/-- A payload is accepted exactly if no bytes are left behind the table at its front. -/
theorem decode_eq_ok_iff_readTable :
    decode payload = .ok table ↔ ∃ last, readTable payload = .ok (table, last) ∧
      last.rest = [] := by
  rw [decode_eq_readTable, bind_eq_ok_iff]
  constructor
  · rintro ⟨⟨found, last⟩, read, returned⟩
    dsimp only at returned
    split at returned
    · next empty =>
      cases returned
      exact ⟨last, read, List.isEmpty_iff.mp empty⟩
    · cases returned
  · rintro ⟨last, read, empty⟩
    exact ⟨(table, last), read, if_pos (List.isEmpty_iff.mpr empty)⟩

/-- A payload that is decoded holds the table: reading left nothing behind it. -/
theorem holds_of_decode (decoded : decode payload = .ok table) : Holds payload table := by
  obtain ⟨last, read, empty⟩ := decode_eq_ok_iff_readTable.mp decoded
  obtain ⟨front, holds, whole, -⟩ := holds_of_readTable read
  rw [whole, empty, List.append_nil]
  exact holds

/-- A payload that holds a table is decoded to it. That it is long enough for its header is a
property of the columns that it holds. -/
theorem decode_of_holds (holds : Holds payload table) : decode payload = .ok table := by
  obtain ⟨rows, columns⟩ := table
  obtain ⟨few, keyed, different, counted, blocks, written, whole⟩ := holds
  dsimp only at few keyed different counted written whole
  obtain ⟨rowCount, rfl⟩ : ∃ rowCount : UInt32, rowCount.toNat = rows :=
    ⟨UInt32.ofNat rows, UInt32.toNat_ofNat_of_lt' (Nat.lt_of_le_of_lt few (by decide))⟩
  obtain ⟨columnCount, length⟩ : ∃ columnCount : UInt32, columnCount.toNat = columns.length :=
    ⟨UInt32.ofNat columns.length, UInt32.toNat_ofNat_of_lt' counted⟩
  have fixed := encode_ofCounts columnCount rowCount
  rw [length] at fixed
  rw [← fixed] at whole
  have rest : payload.drop headerSize = blocks.flatten := by
    rw [whole, ← length_encode_header (Header.ofCounts columnCount rowCount) rfl, List.drop_left]
  have front : (readHeader payload 0).1 = .ok (Header.ofCounts columnCount rowCount) := by
    refine readHeader_eq_ok_iff.mpr
      ⟨Header.decode_eq_ok_iff.mpr ⟨⟨few, ?_⟩, rfl, rest.symm ▸ whole⟩, ?_⟩
    · intro none
      apply UInt32.toNat_inj.mp
      apply keyed
      rw [← List.length_eq_zero_iff, ← length]
      exact congrArg UInt32.toNat none
    · have least := length_le_of_columnBytes written
      rw [← length, ← rest, List.length_drop] at least
      exact least
  have last : (⟨headerSize, payload.drop headerSize⟩ : Cursor).Passes blocks.flatten
      ⟨headerSize + blocks.flatten.length, []⟩ := ⟨by rw [rest, List.append_nil], rfl⟩
  have read : readColumns rowCount.toNat columnCount.toNat [] ⟨headerSize, payload.drop headerSize⟩
      = .ok (columns, ⟨headerSize + blocks.flatten.length, []⟩) :=
    readColumns_eq_ok_iff.mpr ⟨columns, blocks, rfl, length.symm, written, different, by simp, last⟩
  exact bind_eq_ok_iff.mpr ⟨_, front, bind_eq_ok_iff.mpr ⟨_, read, rfl⟩⟩

/-- A table that a payload holds has its rows: each row has the cells that
the columns have at its place. -/
theorem Holds.aligned (holds : Holds payload table) : table.Aligned := by
  obtain ⟨blocks, written, -⟩ := holds.written
  apply Table.aligned_of_full _ holds.different
  intro column among
  obtain ⟨index, inside, rfl⟩ := List.getElem_of_mem among
  exact (written.get inside (written.length_eq ▸ inside)).full

/-- A payload is decoded to a table if and only if it holds the table, and the rows of the table are
then those of its columns. Each reader has a lemma that tells for which bytes it returns what, and
the grammar is put together from these as the reader is from its parts. -/
theorem decode_eq_ok_iff_holds (payload : Bytes) (table : Table) :
    decode payload = .ok table ↔ Holds payload table ∧ table.Aligned :=
  ⟨fun decoded => ⟨holds_of_decode decoded, (holds_of_decode decoded).aligned⟩, fun holds =>
    decode_of_holds holds.1⟩

end Payloads

end LedgerIntake.Batch
