import LedgerIntake.Proofs.Batch.Decoding

/-!
# What a writer finishes

A writer takes in values one after the other and refuses some of them. Whatever they were, its
columns have different names that are short enough, and its rows are not too many. The reader has
three rules of its own beside these: a header that counts rows has to count columns, there are only
as many columns as a header counts, and text in a cell may not nest too deep. A batch that a writer
finishes is accepted exactly if it keeps these rules, and then it has as many rows as the writer.
-/

namespace LedgerIntake.Batch

open Json

namespace Writer

/-- A writer to which values were offered, of which it refused some. -/
def offerAll (writer : Writer) (values : List Value) : Writer :=
  values.foldl (fun writer value => (writer.pushValue value).1) writer

/-- The rules that a writer keeps. -/
structure Sound (writer : Writer) : Prop where
  different : writer.columns.Nodup
  short : ∀ name ∈ writer.columns, name.utf8ByteSize ≤ nameLimit
  few : writer.rows.size ≤ rowLimit

/-- Registering keys adds none that is known or too long, also if it stops before the last one. -/
theorem register_sound {columns : List String} (different : columns.Nodup)
    (short : ∀ name ∈ columns, name.utf8ByteSize ≤ nameLimit) (keys : List String) :
    (register columns keys).1.Nodup ∧ ∀ name ∈ (register columns keys).1,
      name.utf8ByteSize ≤ nameLimit := by
  induction keys generalizing columns with
  | nil => exact ⟨different, short⟩
  | cons key rest inductionHypothesis =>
    rw [register]
    split
    · exact inductionHypothesis different short
    · next fresh =>
      split
      · exact ⟨different, short⟩
      · next fits =>
        apply inductionHypothesis
        · refine List.nodup_append.mpr ⟨different, by simp, ?_⟩
          rintro name among _ last rfl
          exact fresh (List.mem_singleton.mp last ▸ among)
        · intro name among
          rcases List.mem_append.mp among with among | among
          · exact short name among
          · rw [List.mem_singleton.mp among]
            exact Nat.le_of_not_lt fits

/-- A row leaves a sound writer sound, also if it is refused after some of its keys were kept. -/
theorem Sound.push {writer : Writer} (sound : writer.Sound) (row : Row) :
    (writer.push row).1.Sound := by
  obtain ⟨columns, rows⟩ := writer
  obtain ⟨different, short, few⟩ := sound
  obtain ⟨distinct, fits⟩ := register_sound different short (Members.keys row)
  rw [Writer.push]
  split
  · exact ⟨different, short, few⟩
  · next room =>
    cases registered : register columns (Members.keys row) with
    | mk later fault =>
      rw [registered] at distinct fits
      cases fault with
      | none =>
        refine ⟨distinct, fits, ?_⟩
        rw [Array.size_push]
        exact Nat.lt_of_not_le room
      | some fault => exact ⟨distinct, fits, few⟩

/-- What every row leaves true of a writer stays true whatever is offered to it. -/
theorem offerAll_induction {motive : Writer → Prop}
    (step : ∀ (writer : Writer) (row : Row), motive writer → motive (writer.push row).1)
    {writer : Writer}
    (holds : motive writer) (values : List Value) : motive (writer.offerAll values) := by
  refine List.foldlRecOn values _ holds fun reached kept value _ => ?_
  cases value with
  | object row => exact step reached row kept
  | _ => exact kept

/-- A new writer keeps its rules: it has no columns and no rows. -/
theorem sound_empty : empty.Sound :=
  ⟨List.nodup_nil, fun _ among => absurd among List.not_mem_nil, Nat.zero_le _⟩

/-- Offering values one after another leaves a sound writer sound. The
induction is on the values. -/
theorem Sound.offerAll {writer : Writer} (sound : writer.Sound) (values : List Value) :
    (writer.offerAll values).Sound :=
  offerAll_induction (fun _ row sound => sound.push row) sound values

/-- Whatever is offered to a new writer, it keeps its rules: its columns differ, their names
are short and its rows few. -/
theorem sound_offerAll (values : List Value) : (empty.offerAll values).Sound :=
  sound_empty.offerAll values

/-- A header can count the rows of a writer, as there are no more of
them than one batch may carry. -/
theorem Sound.toNat_size {writer : Writer} (sound : writer.Sound) :
    (UInt32.ofNat writer.size).toNat = writer.rows.size :=
  UInt32.toNat_ofNat_of_lt' (Nat.lt_of_le_of_lt sound.few (by decide))

/-- The parts of a batch that was finished: a header and a column for each name. -/
theorem finish_parts {writer : Writer} {bytes : Bytes} (finished : writer.finish = .ok bytes) :
    ∃ blocks, List.Forall₂
    (fun name block => writeColumn name (cellsOf writer.rows.toList name) = .ok block)
        writer.columns blocks ∧
      bytes
        = (Header.ofCounts (UInt32.ofNat writer.columns.length) (UInt32.ofNat writer.size)).encode
        ++ blocks.flatten := by
  rw [finish] at finished
  dsimp only at finished
  split at finished
  · cases finished
  · next blocks written =>
    cases finished
    exact ⟨blocks, forall₂_of_mapM written, rfl⟩

/-- The rules of the reader that a writer does not check. -/
structure Readable (writer : Writer) : Prop where
  /-- Rows have a column. -/
  keyed : writer.columns = [] → writer.size = 0
  /-- A header can count the columns. -/
  counted : writer.columns.length < UInt32.size
  /-- No cell nests too deep. -/
  shallow : ∀ name ∈ writer.columns, ∀ cell ∈ cellsOf writer.rows.toList name,
    cell.depth ≤ greatestDepth

end Writer

section Nesting

variable {column : String} {type : ColumnType} {offset : Nat}

/-- A cell that is read back does not nest too deep. Only JSON text nests, and text
that nests deeper is refused. -/
theorem shallow_of_readCell {cell : Value} {bytes rest : Bytes} (holds : type.Holds cell)
    (present : cell.isNull = false) (written : writeCell column type cell = .ok bytes)
    {read : Value × Cursor}
    (succeeds : readCell column type ⟨offset, bytes ++ rest⟩ = .ok read) :
    cell.depth ≤ greatestDepth := by
  cases holds with
  | json =>
    rw [writeCell_json column present] at written
    rw [readCell, Cursor.sized_writeSized offset column _ bytes rest written] at succeeds
    dsimp only [bind, Except.bind] at succeeds
    split at succeeds
    · next value readable => exact plain_readable.depth_le_of_readBytes? readable
    · cases succeeds
  | _ => exact Nat.zero_le _

/-- A cell that is null does not nest, so absent cells need no check. -/
theorem depth_of_isNull {cell : Value} (absent : cell.isNull = true) : cell.depth = 0 := by
  cases cell with
  | null => rfl
  | _ => cases absent

/-- Cells that are read back do not nest too deep. The induction is on the cells that were written,
and each is read where it was written. -/
theorem shallow_of_readCells {cells : List Value} {values : List Bytes} {rest : Bytes}
    (holds : ∀ cell ∈ cells, type.Holds cell)
    (written : List.Forall₂ (fun cell bytes => writeCell column type cell = .ok bytes) cells values)
    {read : List Value} {result : List Value × Cursor}
    (succeeds : readCells column type ⟨offset, values.flatten ++ rest⟩
      read (cells.map fun cell => !cell.isNull)
      = .ok result) : ∀ cell ∈ cells, cell.depth ≤ greatestDepth := by
  induction written generalizing offset read with
  | nil => exact fun cell among => absurd among List.not_mem_nil
  | @cons cell bytes cells values first _ inductionHypothesis =>
    have others := fun other member => holds other (List.mem_cons_of_mem cell member)
    rw [List.flatten_cons, List.append_assoc, List.map_cons] at succeeds
    cases absent : cell.isNull with
    | true =>
      have empty : bytes = [] := by
        rw [writeCell.eq_def, if_pos absent] at first
        cases first
        rfl
      rw [absent, empty, List.nil_append, Bool.not_true, readCells] at succeeds
      refine List.forall_mem_cons.mpr ⟨?_, inductionHypothesis others succeeds⟩
      rw [depth_of_isNull absent]
      exact Nat.zero_le _
    | false =>
      rw [absent, Bool.not_false, readCells] at succeeds
      split at succeeds
      · cases succeeds
      · next value behind found =>
        -- A cell that does not nest too deep is read to its end, so the others are
        -- read from where they begin.
        have shallow := shallow_of_readCell (holds cell List.mem_cons_self) absent first found
        obtain ⟨decoded, back, -⟩ := readCell_writeCell offset (values.flatten ++ rest)
          (holds cell List.mem_cons_self) absent shallow first
        rw [found] at back
        cases back
        exact List.forall_mem_cons.mpr ⟨shallow, inductionHypothesis others succeeds⟩

/-- The cells of a body that is read back do not nest too deep, since the bitmap tells
which of them were written. -/
theorem shallow_of_readBody {cells : List Value} {body : Bytes}
    (holds : ∀ cell ∈ cells, type.Holds cell)
    (written : writeBody column type cells = .ok body) {read : List Value}
    (succeeds : readBody column type cells.length ⟨offset, body⟩ = .ok read) :
    ∀ cell ∈ cells, cell.depth ≤ greatestDepth := by
  obtain ⟨values, each, rfl⟩ := writeBody_parts written
  rw [readBody_parts] at succeeds
  obtain ⟨result, found, -⟩ := bind_eq_ok_iff.mp succeeds
  rw [← List.append_nil values.flatten] at found
  exact shallow_of_readCells holds each found

/-- The cells of a column that is read back do not nest too deep, and the
reader stands behind the column. -/
theorem shallow_of_readColumn {name : String} {cells : List Value} {block rest : Bytes}
    (short : name.utf8ByteSize ≤ Writer.nameLimit) (written : writeColumn name cells = .ok block)
    {column : Column} {later : Cursor}
    (succeeds : readColumn cells.length ⟨offset, block ++ rest⟩ = .ok (column, later)) :
    (∀ cell ∈ cells, cell.depth ≤ greatestDepth) ∧ later = ⟨offset + block.length, rest⟩ := by
  obtain ⟨body, found, small, rfl⟩ := writeColumn_parts written
  rw [readColumn_parts short small] at succeeds
  cases outcome :
      readBody name (inferType cells) cells.length ⟨offset + 2 + name.utf8ByteSize + 8, body⟩ with
  | error refusal =>
    rw [outcome] at succeeds
    cases succeeds
  | ok decoded =>
    rw [outcome] at succeeds
    cases succeeds
    exact ⟨shallow_of_readBody (fun _ member => holds_inferType member) found outcome, rfl⟩

/-- Where all bytes of some columns are read as columns, all of the columns are read, and none of
their cells nests too deep. The induction is on how many are read. -/
theorem shallow_of_readColumns {rows : Nat} {cellsOf : String → List Value} {names : List String}
    {blocks : List Bytes} (short : ∀ name ∈ names, name.utf8ByteSize ≤ Writer.nameLimit)
    (full : ∀ name ∈ names, (cellsOf name).length = rows)
    (written : List.Forall₂ (fun name block => writeColumn name (cellsOf name) = .ok block)
      names blocks)
    {count : Nat} {read all : List Column} {last : Cursor}
    (succeeds : readColumns rows count read ⟨offset, blocks.flatten⟩ = .ok (all, last))
    (ended : last.rest = []) :
    count = names.length ∧ ∀ name ∈ names, ∀ cell ∈ cellsOf name, cell.depth ≤ greatestDepth := by
  induction written generalizing offset count read with
  | nil =>
    cases count with
    | zero => exact ⟨rfl, fun name among => absurd among List.not_mem_nil⟩
    | succ count => cases succeeds
  | @cons name block names blocks first others inductionHypothesis =>
    cases count with
    | zero =>
      cases succeeds
      -- No column was read, but the bytes of the first one would be left behind.
      have least := length_writeColumn first
      have none : (block ++ blocks.flatten).length = 0 := congrArg List.length ended
      rw [List.length_append] at none
      simp only [columnOverhead] at least
      omega
    | succ count =>
      rw [List.flatten_cons, readColumns] at succeeds
      split at succeeds
      · cases succeeds
      · next column later found =>
        rw [← full name List.mem_cons_self] at found
        obtain ⟨shallow, rfl⟩ := shallow_of_readColumn (short name List.mem_cons_self) first found
        split at succeeds
        · cases succeeds
        · obtain ⟨rfl, others⟩ := inductionHypothesis
            (fun other member => short other (List.mem_cons_of_mem _ member))
            (fun other member => full other (List.mem_cons_of_mem _ member)) succeeds
          exact ⟨rfl, List.forall_mem_cons.mpr ⟨shallow, others⟩⟩

end Nesting

section Acceptance

/-- A column that was written has the bytes of a column, as it is read back where it was written. -/
theorem exists_columnBytes {name : String} {cells : List Value} {block : Bytes}
    (short : name.utf8ByteSize ≤ Writer.nameLimit)
    (shallow : ∀ cell ∈ cells, cell.depth ≤ greatestDepth)
    (written : writeColumn name cells = .ok block) :
    ∃ column : Column, column.name = name ∧ ColumnBytes cells.length column block := by
  obtain ⟨column, read, stands⟩ := readColumn_writeColumn short shallow written 0 []
  obtain ⟨bytes, allowed, passes⟩ := readColumn_eq_ok_iff.mp read
  have same : block = bytes := by
    have rest := passes.rest
    rwa [List.append_nil, List.append_nil] at rest
  exact ⟨column, stands.name, same ▸ allowed⟩

/-- Every block that was written for a name holds the bytes of a column of that name, where cells
nest no deeper than they may. -/
theorem exists_columnBytes_all {rows : Nat} {cellsOf : String → List Value} {names : List String}
    {blocks : List Bytes} (short : ∀ name ∈ names, name.utf8ByteSize ≤ Writer.nameLimit)
    (full : ∀ name ∈ names, (cellsOf name).length = rows)
    (shallow : ∀ name ∈ names, ∀ cell ∈ cellsOf name, cell.depth ≤ greatestDepth)
    (written : List.Forall₂ (fun name block => writeColumn name (cellsOf name) = .ok block)
      names blocks) :
    ∃ columns, columns.map Column.name = names ∧ List.Forall₂
    (ColumnBytes rows) columns blocks := by
  induction written with
  | nil => exact ⟨[], rfl, .nil⟩
  | @cons name block names blocks first others inductionHypothesis =>
    obtain ⟨column, rfl, allowed⟩ := exists_columnBytes (short name List.mem_cons_self)
      (shallow name List.mem_cons_self) first
    rw [full _ List.mem_cons_self] at allowed
    obtain ⟨columns, rfl, rest⟩ := inductionHypothesis
      (fun other member => short other (List.mem_cons_of_mem _ member))
      (fun other member => full other (List.mem_cons_of_mem _ member))
      (fun other member => shallow other (List.mem_cons_of_mem _ member))
    exact ⟨column :: columns, rfl, .cons allowed rest⟩

variable {writer : Writer} {bytes : Bytes}

/-- A batch that keeps the rules of the reader is accepted: its header is allowed, and each
of its blocks holds a column. -/
theorem Writer.Readable.decode (readable : writer.Readable) (sound : writer.Sound)
    (finished : writer.finish = .ok bytes) : ∃ table, Batch.decode bytes = .ok table := by
  obtain ⟨blocks, written, whole⟩ := finish_parts finished
  obtain ⟨columns, names, allowed⟩ :=
    exists_columnBytes_all sound.short (fun _ _ => List.length_map _)
      readable.shallow written
  rw [Array.length_toList] at allowed
  have length : columns.length = writer.columns.length := by rw [← names, List.length_map]
  have columnCount : (UInt32.ofNat writer.columns.length).toNat = columns.length := by
    rw [length]
    exact UInt32.toNat_ofNat_of_lt' readable.counted
  have rowCount := sound.toNat_size
  refine ⟨⟨writer.rows.size, columns⟩, decode_of_holds ⟨sound.few, ?_, ?_, ?_, blocks, allowed, ?_⟩⟩
  · rintro rfl
    exact readable.keyed names.symm
  · rw [names]
    exact sound.different
  · rw [length]
    exact readable.counted
  · rw [whole, encode_ofCounts, columnCount, rowCount]

/-- A batch that is accepted keeps the rules of the reader, and has all rows of its writer. -/
theorem readable_of_decode (sound : writer.Sound) (finished : writer.finish = .ok bytes)
    {table : Table}
    (decoded : decode bytes = .ok table) : writer.Readable ∧ table.rowCount = writer.size := by
  obtain ⟨blocks, written, whole⟩ := Writer.finish_parts finished
  have rowCount := sound.toNat_size
  obtain ⟨last, read, ended⟩ := decode_eq_ok_iff_readTable.mp decoded
  obtain ⟨header, front, afterHeader⟩ := bind_eq_ok_iff.mp read
  obtain ⟨⟨columns, _⟩, read, returned⟩ := bind_eq_ok_iff.mp afterHeader
  cases returned
  have behind : bytes.drop headerSize = blocks.flatten := by
    rw [whole, ← length_encode_header (Header.ofCounts (UInt32.ofNat writer.columns.length)
      (UInt32.ofNat writer.size)) rfl, List.drop_left]
  obtain ⟨found, -⟩ := readHeader_eq_ok_iff.mp front
  rw [whole, Header.decode_ofCounts _ _ _ (rowCount ▸ sound.few)] at found
  split at found
  · cases found
  · next keyed =>
    cases found
    dsimp only [Header.ofCounts] at read ⊢
    rw [rowCount, behind] at read
    obtain ⟨counted, shallow⟩ :=
      shallow_of_readColumns sound.short (fun _ _ => List.length_map _) written read ended
    refine ⟨⟨?_, ?_, shallow⟩, rowCount⟩
    · intro none
      by_contra some
      refine keyed ⟨by rw [none]; rfl, fun zero => some ?_⟩
      rw [zero] at rowCount
      exact rowCount.symm
    · rw [← counted]
      exact UInt32.toNat_lt_size _

/-- What a writer finishes after any values were offered to it is accepted exactly if it
keeps the rules of the reader. It then has as many rows as the writer. The blocks of a
sound writer are blocks of columns to the reader, so only the counts of the header and the
depth of cells are left to fail. -/
theorem decode_finish_iff (values : List Value) (bytes : Bytes)
    (finished : (Writer.empty.offerAll values).finish = .ok bytes) :
    ((∃ table, decode bytes = .ok table) ↔ (Writer.empty.offerAll values).Readable) ∧
      ∀ table, decode bytes = .ok table →
        table.rows.length = (Writer.empty.offerAll values).size := by
  have sound := Writer.sound_offerAll values
  refine ⟨⟨?_, fun readable => readable.decode sound finished⟩, ?_⟩
  · rintro ⟨table, decoded⟩
    exact (readable_of_decode sound finished decoded).1
  · intro table decoded
    rw [(holds_of_decode decoded).aligned.count]
    exact (readable_of_decode sound finished decoded).2

/-- Two rows without a common key, and a value between them that is no row, are
finished as a batch of two rows. -/
theorem decode_finish_iff_mixed : ∃ bytes table,
    (Writer.empty.offerAll [.object [("a", .bool true)], .null, .object [("b", .text "x")]]).finish
      = .ok bytes ∧
      decode bytes = .ok table ∧ table.rows.length = 2 := by
  have finished :
      (Writer.empty.offerAll
        [.object [("a", .bool true)], .null, .object [("b", .text "x")]]).finish
      = .ok [84, 67, 66, 49, 1, 0, 0, 0, 2, 0, 0, 0, 2, 0, 0,
        0, 1, 0, 97, 1, 0, 0, 0, 2, 0, 0, 0, 1, 1, 1, 0, 98,
        4, 0, 0, 0, 6, 0, 0, 0, 2, 1, 0, 0, 0, 120] := by
    decide +kernel
  have readable :
      (Writer.empty.offerAll
        [.object [("a", .bool true)], .null, .object [("b", .text "x")]]).Readable :=
    ⟨by decide, by decide, by decide⟩
  obtain ⟨accepts, count⟩ := decode_finish_iff _ _ finished
  obtain ⟨table, decoded⟩ := accepts.mpr readable
  exact ⟨_, table, finished, decoded, count table decoded⟩

/-- A row without keys is taken in and finished, and the batch is refused for it. -/
theorem finish_keyless : ∃ bytes, (Writer.empty.offerAll [.object []]).finish = .ok bytes ∧
    (Writer.empty.offerAll [.object []]).size = 1 ∧
    decode bytes = .error (.header (.rowsWithoutColumns 1)) :=
  ⟨_, rfl, rfl, rfl⟩

end Acceptance

end LedgerIntake.Batch
