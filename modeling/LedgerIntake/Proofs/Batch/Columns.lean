import LedgerIntake.Proofs.Batch.Cells

/-!
# Columns and headers read back

A column that was written is read back with its name, its inferred type and the cells that its type
carries. A header with counts that a batch may have is read back too, and it never declares more
than the columns behind it take.
-/

namespace LedgerIntake.Batch

open Json

section Columns

/-- A column in a payload stands for the cells of a name. -/
structure Column.StandsFor (column : Column) (name : String) (cells : List Value) : Prop where
  name : column.name = name
  type : column.type = inferType cells
  cells : List.Forall₂ column.type.Carries cells column.cells

/-- The parts of a column that was written: its name behind its length, its type with the reserved
bytes, and its body behind its length. -/
theorem writeColumn_parts {name : String} {cells : List Value} {bytes : Bytes}
    (written : writeColumn name cells = .ok bytes) :
    ∃ body, writeBody name (inferType cells) cells = .ok body ∧ body.length < sizeLimit ∧
      bytes = Bytes.littleEndian 2 name.utf8ByteSize ++ (Utf8.encode name
        ++ (([(inferType cells).tag, 0, 0, 0] ++ Bytes.littleEndian 4 body.length) ++ body)) := by
  unfold writeColumn at written
  cases found : writeBody name (inferType cells) cells with
  | error fault =>
    dsimp only at written
    rw [found] at written
    cases written
  | ok body =>
    dsimp only at written
    rw [found] at written
    dsimp only [bind, Except.bind] at written
    split at written
    · next small =>
      cases written
      refine ⟨body, rfl, small, ?_⟩
      simp only [List.append_assoc]
    · cases written

/-- A column takes at least its fixed parts and its presence bits,
whatever its name and its cells. -/
theorem length_writeColumn {name : String} {cells : List Value} {bytes : Bytes}
    (written : writeColumn name cells = .ok bytes) :
    columnOverhead + bitmapLength cells.length ≤ bytes.length := by
  obtain ⟨body, found, -, rfl⟩ := writeColumn_parts written
  have wide : bitmapLength cells.length ≤ body.length := by
    obtain ⟨values, -, rfl⟩ := writeBody_parts found
    rw [List.length_append, length_packBitmap, List.length_map, List.length_nil]
    omega
  simp only [List.length_append, Bytes.length_littleEndian, List.length_cons, List.length_nil,
    columnOverhead]
  omega

/-- Reading a column that stands there comes down to reading its body. All tests of the front
succeed, and the body is taken as a whole. -/
theorem readColumn_parts {name : String} {body : Bytes}
    (short : name.utf8ByteSize ≤ Writer.nameLimit)
    (small : body.length < sizeLimit) (type : ColumnType) (rows offset : Nat) (rest : Bytes) :
    readColumn rows ⟨offset, (Bytes.littleEndian 2 name.utf8ByteSize ++ (Utf8.encode name
        ++ (([type.tag, 0, 0, 0] ++ Bytes.littleEndian 4 body.length) ++ body))) ++ rest⟩
      = (readBody name type rows ⟨offset + 2 + name.utf8ByteSize + 8, body⟩).map fun cells =>
        (⟨name, type, cells⟩, ⟨offset + (Bytes.littleEndian 2 name.utf8ByteSize ++ (Utf8.encode name
          ++ (([type.tag, 0, 0, 0] ++ Bytes.littleEndian 4 body.length) ++ body))).length,
            rest⟩) := by
  have fits : name.utf8ByteSize < 1 <<< (8 * 2) := Nat.lt_of_le_of_lt short (by decide)
  have trailer : ([type.tag, 0, 0, 0] ++ Bytes.littleEndian 4 body.length).length = 8 := by
    rw [List.length_append, Bytes.length_littleEndian]
    rfl
  have tag : ([type.tag, 0, 0, 0] ++ Bytes.littleEndian 4 body.length).headD 0 = type.tag := rfl
  have declared :
      Bytes.ofLittleEndian (([type.tag, 0, 0, 0] ++ Bytes.littleEndian 4 body.length).drop 4)
      = body.length := Bytes.ofLittleEndian_littleEndian 4 body.length small
  have total : (Bytes.littleEndian 2 name.utf8ByteSize ++ (Utf8.encode name
      ++ (([type.tag, 0, 0, 0] ++ Bytes.littleEndian 4 body.length) ++ body))).length
        = 2 + name.utf8ByteSize + 8 + body.length := by
    rw [List.length_append, List.length_append, List.length_append, trailer,
      Bytes.length_littleEndian, Utf8.length_encode]
    omega
  have behind : offset + (2 + name.utf8ByteSize + 8 + body.length)
      = offset + 2 + name.utf8ByteSize + 8 + body.length := by omega
  rw [total, behind, readColumn, List.append_assoc, Cursor.number_littleEndian offset 2 _ _ fits]
  dsimp only [bind, Except.bind]
  rw [List.append_assoc, Cursor.take_append _ _ _ _ (Utf8.length_encode name)]
  dsimp only
  rw [Utf8.decode?_encode]
  dsimp only
  rw [List.append_assoc, Cursor.take_append _ _ _ _ trailer]
  dsimp only
  rw [if_neg (by simp)]
  rw [tag, ColumnType.ofTag_tag]
  dsimp only
  rw [declared, Cursor.take_append _ _ _ _ rfl]
  dsimp only
  cases readBody name type rows ⟨offset + 2 + name.utf8ByteSize + 8, body⟩ <;> rfl

/-- A column that was written is read back under its name, with cells that stand
for those that were written. -/
theorem readColumn_writeColumn {name : String} {cells : List Value} {bytes : Bytes}
    (short : name.utf8ByteSize ≤ Writer.nameLimit)
    (shallow : ∀ cell ∈ cells, cell.depth ≤ greatestDepth)
    (written : writeColumn name cells = .ok bytes) (offset : Nat) (rest : Bytes) :
    ∃ column : Column, readColumn cells.length ⟨offset, bytes ++ rest⟩
        = .ok (column, ⟨offset + bytes.length, rest⟩) ∧ column.StandsFor name cells := by
  obtain ⟨body, found, small, rfl⟩ := writeColumn_parts written
  obtain ⟨decoded, read, carried⟩ :=
    readBody_writeBody (fun _ member => holds_inferType member) shallow found
      (offset + 2 + name.utf8ByteSize + 8)
  refine ⟨⟨name, inferType cells, decoded⟩, ?_, rfl, rfl, carried⟩
  rw [readColumn_parts short small, read]
  rfl

/-- Columns that were written are read back in order, and their names are found to differ. The
induction is on the columns, behind those that were read. -/
theorem readColumns_written {rows : Nat} {cellsOf : String → List Value} {names : List String}
    {columns : List Bytes} (different : names.Nodup)
    (short : ∀ name ∈ names, name.utf8ByteSize ≤ Writer.nameLimit)
    (full : ∀ name ∈ names, (cellsOf name).length = rows)
    (shallow : ∀ name ∈ names, ∀ cell ∈ cellsOf name, cell.depth ≤ greatestDepth)
    (written : List.Forall₂ (fun name bytes => writeColumn name (cellsOf name) = .ok bytes)
      names columns)
    (offset : Nat) (rest : Bytes) (read : List Column)
    (unread : ∀ column ∈ read, column.name ∉ names) :
    ∃ decoded, readColumns rows names.length read ⟨offset, columns.flatten ++ rest⟩
        = .ok (read.reverse ++ decoded, ⟨offset + columns.flatten.length, rest⟩) ∧
      List.Forall₂ (fun name column => Column.StandsFor column name (cellsOf name))
        names decoded := by
  induction written generalizing offset read with
  | nil => exact ⟨[], by rw [List.append_nil]; rfl, .nil⟩
  | @cons name bytes names columns first others inductionHypothesis =>
    obtain ⟨fresh, different⟩ := List.nodup_cons.mp different
    obtain ⟨column, found, stands⟩ := readColumn_writeColumn (short name List.mem_cons_self)
      (shallow name List.mem_cons_self) first offset (columns.flatten ++ rest)
    rw [full name List.mem_cons_self] at found
    have distinct : (read.any fun earlier => earlier.name = column.name) = false := by
      apply List.any_eq_false.mpr
      intro earlier member same
      apply unread earlier member
      rw [of_decide_eq_true same, stands.name]
      exact List.mem_cons_self
    have left : ∀ earlier ∈ column :: read, earlier.name ∉ names := by
      intro earlier member among
      rcases List.mem_cons.mp member with rfl | member
      · exact fresh (stands.name ▸ among)
      · exact unread earlier member (List.mem_cons_of_mem _ among)
    obtain ⟨decoded, later, standing⟩ := inductionHypothesis different
      (fun other member => short other (List.mem_cons_of_mem _ member))
      (fun other member => full other (List.mem_cons_of_mem _ member))
      (fun other member => shallow other (List.mem_cons_of_mem _ member))
      (offset + bytes.length) (column :: read) left
    refine ⟨column :: decoded, ?_, .cons stands standing⟩
    rw [List.flatten_cons, List.append_assoc, List.length_cons, readColumns, found]
    dsimp only
    rw [distinct, if_neg (by decide), later, List.reverse_cons, List.append_assoc,
      List.singleton_append, List.length_append, Nat.add_assoc]

/-- Columns that were written take at least what a header declares for them. -/
theorem length_flatten_columns {rows : Nat} {cellsOf : String → List Value} {names : List String}
    {columns : List Bytes} (full : ∀ name ∈ names, (cellsOf name).length = rows)
    (written : List.Forall₂ (fun name bytes => writeColumn name (cellsOf name) = .ok bytes)
      names columns) :
    names.length * (columnOverhead + bitmapLength rows) ≤ columns.flatten.length := by
  induction written with
  | nil => exact Nat.le_of_eq (Nat.zero_mul _)
  | @cons name bytes names columns first others inductionHypothesis =>
    have least := length_writeColumn first
    rw [full name List.mem_cons_self] at least
    have rest := inductionHypothesis fun other member => full other (List.mem_cons_of_mem _ member)
    rw [List.length_cons, Nat.succ_mul, List.flatten_cons, List.length_append]
    omega

end Columns

section Headers

variable (columnCount rowCount : UInt32)

/-- A header with a mark of four bytes is written in its fixed size. -/
theorem length_encode_header (header : Header) (magic : header.magic.length = 4) :
    header.encode.length = headerSize := by
  simp only [Header.encode, List.length_append, Bytes.length_littleEndian, magic, headerSize]

/-- A header is read back, unless it counts rows but no columns. Its other fields are
those that the reader expects. -/
theorem Header.decode_ofCounts (rest : Bytes) (few : rowCount.toNat ≤ rowLimit) :
    decode ((ofCounts columnCount rowCount).encode ++ rest)
      = if columnCount = 0 ∧ rowCount ≠ 0 then .error (.header (.rowsWithoutColumns rowCount.toNat))
        else .ok (ofCounts columnCount rowCount) := by
  have whole : (ofCounts columnCount rowCount).encode.length = headerSize :=
    length_encode_header _ rfl
  have front : ((ofCounts columnCount rowCount).encode ++ rest).take headerSize
      = (ofCounts columnCount rowCount).encode := List.take_left' whole
  have magic : (ofCounts columnCount rowCount).encode.take 4 = Batch.magic := rfl
  have version : fieldAt (ofCounts columnCount rowCount).encode 4 2 = Batch.version.toNat :=
    Bytes.ofLittleEndian_littleEndian 2 Batch.version.toNat (by decide)
  have flags : fieldAt (ofCounts columnCount rowCount).encode 6 2 = 0 :=
    Bytes.ofLittleEndian_littleEndian 2 0 (by decide)
  have columns : fieldAt (ofCounts columnCount rowCount).encode 8 4 = columnCount.toNat :=
    Bytes.ofLittleEndian_littleEndian 4 columnCount.toNat columnCount.toNat_lt_size
  have rows : fieldAt (ofCounts columnCount rowCount).encode 12 4 = rowCount.toNat :=
    Bytes.ofLittleEndian_littleEndian 4 rowCount.toNat rowCount.toNat_lt_size
  rw [decode]
  dsimp only
  rw [front, magic, version, flags, columns, rows, UInt32.ofNat_toNat, UInt32.ofNat_toNat]
  have filled : ((ofCounts columnCount rowCount).encode.isEmpty) = false := by
    apply List.isEmpty_eq_false_iff.mpr
    intro empty
    rw [empty] at whole
    cases whole
  rw [filled, if_neg (by decide), if_neg (by omega), if_neg (by decide), if_neg (by decide),
    if_neg (by decide), if_neg (by omega)]
  rfl

end Headers

end LedgerIntake.Batch
