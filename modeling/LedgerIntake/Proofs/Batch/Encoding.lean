import LedgerIntake.Proofs.Batch.RefusedRows
import LedgerIntake.Proofs.Batch.RoundTrip

/-!
# Rows that are encoded

Rows have a batch unless a limit of the format is exceeded: the number of rows, the length of a key,
and the size of a column's body or of a cell in it. The type of a column never stands in the way. It
holds every cell that it was inferred from, so a cell is written as it is and never left out, and
the refusal of a cell for its type does not arise.

The size of a body is known before it is written. It is below its limit where the rows, as JSON
text, take less than 4 GiB altogether.
-/

namespace LedgerIntake.Batch

open Json

section Sizes

/-- The bytes that a cell takes in a column of some type. -/
def cellSize (type : ColumnType) (cell : Value) : Nat :=
  if cell.isNull then 0
  else
    match type with
    | .null => 0
    | .bool => 1
    | .int64 => 8
    | .float64 => 8
    | .utf8 => 4 + (cell.text?.getD "").utf8ByteSize
    | .json => 4 + cell.toText.utf8ByteSize

/-- The bytes that the body of a column takes: presence bits and cells. -/
def bodySize (cells : List Value) : Nat :=
  bitmapLength cells.length + (cells.map (cellSize (inferType cells))).sum

/-- What is written has a size that was foretold, or is refused because that
size is not below the limit. -/
inductive Measured (size : Nat) (fault : EncodeFault) : Except EncodeFault Bytes → Prop
  | written (bytes : Bytes) (exact : bytes.length = size) : Measured size fault (.ok bytes)
  | refused (large : sizeLimit ≤ size) : Measured size fault (.error fault)

/-- Bytes in front of others are measured by themselves. A refusal of either part comes from a size
that alone is past the limit. -/
theorem Measured.bind {first rest : Nat} {fault : EncodeFault} {outcome : Except EncodeFault Bytes}
    {next : Bytes → Except EncodeFault Bytes} (front : Measured first fault outcome)
    (behind : ∀ bytes, bytes.length = first → Measured (first + rest) fault (next bytes)) :
    Measured (first + rest) fault (outcome >>= next) := by
  cases front with
  | written bytes exact => exact behind bytes exact
  | refused large => exact .refused (by omega)

variable {column : String} {type : ColumnType}

/-- Content is written behind its length of four bytes, or refused for being too long for that. -/
theorem measured_writeSized (column : String) (content : Bytes) :
    Measured (4 + content.length) (.cellTooLong column) (writeSized column content) := by
  rw [writeSized]
  split
  · exact .written _ (by rw [List.length_append, Bytes.length_littleEndian])
  · exact .refused (by omega)

/-- A cell that its column holds is written, unless it is too long. Only texts and JSON can be, as
other cells have a fixed width. -/
theorem measured_writeCell {cell : Value} (holds : type.Holds cell) :
    Measured (cellSize type cell) (.cellTooLong column) (writeCell column type cell) := by
  cases holds with
  | null => exact .written [] rfl
  | bool value => cases value <;> exact .written _ rfl
  | int64 number integer known range =>
    obtain ⟨pattern, found, -, -⟩ := signed_int64Pattern known range
    have present : (Value.number number).isNull = false := rfl
    have written : writeCell column .int64 (.number number)
      = .ok (Bytes.littleEndian 8 pattern) := by
      rw [writeCell.eq_def, present, if_neg Bool.false_ne_true]
      dsimp only
      rw [found]
    rw [written]
    exact .written _ (Bytes.length_littleEndian 8 pattern)
  | float value finite => exact .written _ (Bytes.length_littleEndian 8 _)
  | widened number integer known exact => exact .written _ (Bytes.length_littleEndian 8 _)
  | utf8 value =>
    have sized := measured_writeSized column (Utf8.encode value)
    rw [Utf8.length_encode] at sized
    exact sized
  | json =>
    cases absent : cell.isNull with
    | true =>
      rw [writeCell.eq_def, cellSize, if_pos absent, if_pos absent]
      exact .written [] rfl
    | false =>
      have sized := measured_writeSized column (Utf8.encode cell.toText)
      rw [Utf8.length_encode] at sized
      rw [writeCell_json column absent, cellSize, absent]
      exact sized

/-- All cells of a column that holds them are written, unless one of them is too long. The induction
is on the cells in the order in which they are written. -/
theorem measured_writeCells {cells : List Value} (holds : ∀ cell ∈ cells, type.Holds cell) :
    Measured (cells.map (cellSize type)).sum (.cellTooLong column)
      ((cells.mapM (writeCell column type)).map List.flatten) := by
  induction cells with
  | nil => exact .written [] rfl
  | cons cell rest inductionHypothesis =>
    have split : ((cell :: rest).mapM (writeCell column type)).map List.flatten
        = writeCell column type cell >>= fun bytes =>
          (rest.mapM (writeCell column type)).map List.flatten >>= fun others =>
            .ok (bytes ++ others) := by
      rw [List.mapM_cons]
      cases writeCell column type cell with
      | error fault => rfl
      | ok bytes => cases rest.mapM (writeCell column type) <;> rfl
    rw [split, List.map_cons, List.sum_cons]
    refine (measured_writeCell (holds cell List.mem_cons_self)).bind fun bytes exact => ?_
    rw [Nat.add_comm]
    refine (inductionHypothesis fun other member =>
      holds other (List.mem_cons_of_mem _ member)).bind
      fun others total => .written _ ?_
    rw [List.length_append, exact, total, Nat.add_comm]

/-- The body of a column is written, unless one of its cells is too long. Its type is the inferred
one, which holds every cell. -/
theorem measured_writeBody (column : String) (cells : List Value) :
    Measured (bodySize cells) (.cellTooLong column) (writeBody column (inferType cells) cells) := by
  have split : writeBody column (inferType cells) cells
      = (cells.mapM (writeCell column (inferType cells))).map List.flatten >>= fun values =>
        .ok (packBitmap [] (cells.map fun cell => !cell.isNull) ++ values) := by
    rw [writeBody]
    cases cells.mapM (writeCell column (inferType cells)) <;> rfl
  rw [split, bodySize, Nat.add_comm]
  refine (measured_writeCells fun _ member => holds_inferType member).bind fun values total =>
    .written _ ?_
  rw [List.length_append, length_packBitmap, List.length_nil, Nat.zero_add, List.length_map, total,
    Nat.add_comm]

/-- A column that is refused has a cell or a body that is too long, and
the refusal names the column. -/
theorem large_of_writeColumn {name : String} {cells : List Value} {fault : EncodeFault}
    (refused : writeColumn name cells = .error fault) :
    sizeLimit ≤ bodySize cells ∧ (fault = .cellTooLong name ∨ fault = .bodyTooLong name) := by
  have measured := measured_writeBody name cells
  rw [writeColumn] at refused
  cases written : writeBody name (inferType cells) cells with
  | error fault' =>
    rw [written] at measured
    dsimp only at refused
    rw [written] at refused
    cases refused
    cases measured with
    | refused large => exact ⟨large, .inl rfl⟩
  | ok body =>
    rw [written] at measured
    dsimp only at refused
    rw [written] at refused
    dsimp only [bind, Except.bind] at refused
    cases measured with
    | written _ exact =>
      split at refused
      · cases refused
      · next large =>
        cases refused
        exact ⟨exact ▸ Nat.le_of_not_lt large, .inr rfl⟩

/-- A column is written exactly if its body is not too long: a cell that is
too long makes its body so. -/
theorem exists_writeColumn_iff {name : String} {cells : List Value} :
    (∃ block, writeColumn name cells = .ok block) ↔ bodySize cells < sizeLimit := by
  constructor
  · rintro ⟨block, written⟩
    obtain ⟨body, found, small, -⟩ := writeColumn_parts written
    have measured := measured_writeBody name cells
    rw [found] at measured
    cases measured with
    | written _ exact => exact exact ▸ small
  · intro small
    cases outcome : writeColumn name cells with
    | ok block => exact ⟨block, rfl⟩
    | error fault => exact absurd (large_of_writeColumn outcome).1 (Nat.not_le.mpr small)

end Sizes

section Limits

/-- The limits that a list of rows keeps. -/
structure WithinLimits (rows : List Row) : Prop where
  few : rows.length ≤ rowLimit
  short : ∀ row ∈ rows, ∀ key ∈ Members.keys row, key.utf8ByteSize ≤ Writer.nameLimit

/-- The limit on bodies, which the cells of a column keep together. -/
def Sized (rows : List Row) : Prop := ∀ name ∈ columnNames rows, bodySize
    (cellsOf rows name) < sizeLimit

/-- Why rows have no batch: each refusal tells a limit that they exceed. -/
inductive Exceeds (rows : List Row) : BatchError → Prop
  | rows (many : rowLimit < rows.length) : Exceeds rows (.tooManyRows (rowLimit + 1) rowLimit)
  | key (row : Row) (member : row ∈ rows) (key : String) (among : key ∈ Members.keys row)
      (long : Writer.nameLimit < key.utf8ByteSize) :
          Exceeds rows (.encode (.nameTooLong key.utf8ByteSize))
  | cell (name : String) (column : name ∈ columnNames rows)
    (large : sizeLimit ≤ bodySize (cellsOf rows name)) :
      Exceeds rows (.encode (.cellTooLong name))
  | body (name : String) (column : name ∈ columnNames rows)
    (large : sizeLimit ≤ bodySize (cellsOf rows name)) :
      Exceeds rows (.encode (.bodyTooLong name))

variable {writer : Writer} {earlier rows : List Row}

/-- A writer that gathered some rows is sound, since its columns are the names of these rows. -/
theorem Writer.Gathered.sound (gathered : writer.Gathered rows) : writer.Sound := by
  constructor
  · rw [gathered.columns]
    exact nodup_eraseDups _
  · intro name among
    rw [gathered.columns, columnNames, List.mem_eraseDups] at among
    exact gathered.short name among
  · rw [← Array.length_toList, gathered.held]
    exact gathered.few

/-- A writer counts the rows that it gathered. -/
theorem Writer.Gathered.size_eq (gathered : writer.Gathered rows) : writer.size = rows.length := by
  rw [← gathered.held, Array.length_toList]
  rfl

/-- A row that is turned away is one too many, or has a key that is too long. The
number of rows is tested first. -/
theorem Writer.exceeds_of_push (sound : writer.Sound) {row : Row} {later : Writer}
    {refusal : BatchError}
    (refused : writer.push row = (later, .error refusal)) :
    refusal = .tooManyRows (rowLimit + 1) rowLimit ∧ rowLimit ≤ writer.size ∨
      ∃ key ∈ Members.keys row, nameLimit < key.utf8ByteSize ∧
        refusal = .encode (.nameTooLong key.utf8ByteSize) := by
  rw [push_eq sound] at refused
  split at refused
  · next full =>
    cases refused
    exact .inl ⟨rfl, full⟩
  · cases verdict : overlong? (Members.keys row) with
    | none =>
      rw [verdict] at refused
      cases refused
    | some fault =>
      rw [verdict] at refused
      cases refused
      obtain ⟨key, found, rfl⟩ := Option.map_eq_some_iff.mp verdict
      have long := List.find?_some found
      exact .inr ⟨key, List.mem_of_find?_eq_some found, of_decide_eq_true long, rfl⟩

/-- Rows that are not taken in are too many, or have a key that is too long. The induction is on the
rows, behind those that were gathered. -/
theorem exceeds_of_pushAll (gathered : writer.Gathered earlier) {refusal : BatchError}
    (refused : pushAll writer rows = .error refusal) :
    refusal = .tooManyRows (rowLimit + 1) rowLimit ∧ rowLimit < earlier.length + rows.length ∨
      ∃ row ∈ rows, ∃ key ∈ Members.keys row, Writer.nameLimit < key.utf8ByteSize ∧
        refusal = .encode (.nameTooLong key.utf8ByteSize) := by
  induction rows generalizing writer earlier with
  | nil => cases refused
  | cons row rest inductionHypothesis =>
    rw [pushAll] at refused
    split at refused
    · next later taken =>
      rcases inductionHypothesis (gathered.push taken) refused with ⟨kind, many⟩
        | ⟨other, member, long⟩
      · refine .inl ⟨kind, ?_⟩
        rw [List.length_append, List.length_singleton] at many
        rw [List.length_cons]
        omega
      · exact .inr ⟨other, List.mem_cons_of_mem _ member, long⟩
    · next later fault turned =>
      cases refused
      rcases Writer.exceeds_of_push gathered.sound turned with ⟨kind, full⟩ | long
      · refine .inl ⟨kind, ?_⟩
        rw [gathered.size_eq] at full
        rw [List.length_cons]
        omega
      · exact .inr ⟨row, List.mem_cons_self, long⟩

/-- Rows that have no batch exceed a limit, and the refusal tells which one: rows and keys while
they are taken in, cells and bodies when they are written. -/
theorem exceeds_of_encode {refusal : BatchError} (refused : encode rows = .error refusal) :
    Exceeds rows refusal := by
  rw [encode] at refused
  cases pushed : pushAll .empty rows with
  | error fault =>
    rw [pushed] at refused
    cases refused
    rcases exceeds_of_pushAll Writer.gathered_empty pushed with ⟨rfl, many⟩
      | ⟨row, member, key, among, long, rfl⟩
    · exact .rows (by simpa using many)
    · exact .key row member key among long
  | ok writer =>
    have gathered := gathered_of_pushAll Writer.gathered_empty pushed
    rw [List.nil_append] at gathered
    rw [pushed] at refused
    dsimp only [bind, Except.bind] at refused
    rw [Writer.finish] at refused
    dsimp only at refused
    rw [gathered.held, gathered.columns] at refused
    split at refused
    · next fault failed =>
      cases refused
      obtain ⟨name, column, fails⟩ := exists_of_mapM_error failed
      obtain ⟨large, rfl | rfl⟩ := large_of_writeColumn fails
      · exact .cell name column large
      · exact .body name column large
    · cases refused

/-- Rows have a batch exactly if they keep all limits. No cell is refused for its type, because the
type was inferred from the cells. -/
theorem exists_encode_iff : (∃ bytes, encode rows = .ok bytes) ↔
    WithinLimits rows ∧ Sized rows := by
  constructor
  · rintro ⟨bytes, encoded⟩
    obtain ⟨columns, parts⟩ := writtenAs_of_encode encoded
    refine ⟨⟨parts.few, fun row member key among => parts.short key ?_⟩, fun name column => ?_⟩
    · exact List.mem_eraseDups.mpr (List.mem_flatMap.mpr ⟨row, member, among⟩)
    · obtain ⟨index, inside, rfl⟩ := List.getElem_of_mem column
      exact exists_writeColumn_iff.mp
        ⟨_, parts.written.get inside (parts.written.length_eq ▸ inside)⟩
  · rintro ⟨⟨few, short⟩, sized⟩
    cases outcome : encode rows with
    | ok bytes => exact ⟨bytes, rfl⟩
    | error refusal =>
      cases exceeds_of_encode outcome with
      | rows many => omega
      | key row member key among long =>
        exact absurd (short row member key among) (Nat.not_le.mpr long)
      | cell name column large => exact absurd (sized name column) (Nat.not_lt.mpr large)
      | body name column large => exact absurd (sized name column) (Nat.not_lt.mpr large)

end Limits

section Texts

/-- The bytes that rows take as JSON text, one after the other. -/
def textSize (rows : List Row) : Nat :=
  (rows.map fun row => (Value.object row).toText.utf8ByteSize).sum

/-- A cell takes few bytes in a column of any type, or hardly more than its text. -/
theorem cellSize_le (type : ColumnType) :
    (∀ cell, cellSize type cell ≤ 8) ∨
      ∀ cell, cellSize type cell ≤ 4 + cell.toText.utf8ByteSize := by
  cases type with
  | null | bool | int64 | float64 =>
    refine .inl fun cell => ?_
    rw [cellSize]
    split <;> decide
  | utf8 =>
    refine .inr fun cell => ?_
    rw [cellSize]
    split
    · omega
    · cases cell with
      | text value =>
        have quoted : value.utf8ByteSize + 2 ≤ (Value.text value).toText.utf8ByteSize :=
          le_utf8ByteSize_quoted value
        exact Nat.add_le_add_left (Nat.le_trans (Nat.le_add_right _ 2) quoted) 4
      | _ => exact Nat.le_add_right 4 _
  | json =>
    refine .inr fun cell => ?_
    rw [cellSize]
    split <;> omega

/-- The text of a row is an object of the texts of its cells. -/
theorem toText_object (row : Row) :
    (Value.object row).toText = object (row.map fun member => (member.1, member.2.toText)) := by
  rw [Value.toText, Value.write, writeMembers_eq]
  rfl

/-- The text of a row takes the text of any of its cells, and more around it: braces, the
quotes of the key, and a colon. -/
theorem le_toText_of_get? {row : Row} {name : String} {cell : Value}
    (found : Members.get? row name = some cell) :
    cell.toText.utf8ByteSize + 5 ≤ (Value.object row).toText.utf8ByteSize := by
  have written : (name, cell.toText) ∈ row.map fun member => (member.1, member.2.toText) :=
    List.mem_map_of_mem (Members.mem_of_get? found)
  have quotes := le_utf8ByteSize_quoted name
  rw [toText_object, utf8ByteSize_object (List.ne_nil_of_mem written)]
  generalize row.map (fun member => (member.1, member.2.toText)) = members at written
  have part : (quoted name).utf8ByteSize + cell.toText.utf8ByteSize + 2
      ≤ (members.map fun member =>
        (quoted member.1).utf8ByteSize + member.2.utf8ByteSize + 2).sum :=
    List.single_le_sum (fun _ _ => Nat.zero_le _) _ (List.mem_map.mpr ⟨_, written, rfl⟩)
  omega

/-- A row without members has a text too, made of two braces. -/
theorem two_le_toText (row : Row) : 2 ≤ (Value.object row).toText.utf8ByteSize := by
  have opening : "\x7b".utf8ByteSize = 1 := by decide
  have closing : "\x7d".utf8ByteSize = 1 := by decide
  rw [toText_object, object, Style.braces, String.utf8ByteSize_append, String.utf8ByteSize_append,
    opening, closing]
  omega

/-- A cell takes less than the text of its row, in a column where it takes
hardly more than its own text. -/
theorem cellSize_lt_toText {type : ColumnType}
    (near : ∀ cell, cellSize type cell ≤ 4 + cell.toText.utf8ByteSize)
    (row : Row) (name : String) :
    cellSize type ((Members.get? row name).getD .null) + 1 ≤
      (Value.object row).toText.utf8ByteSize := by
  cases found : Members.get? row name with
  | none =>
    have least := two_le_toText row
    have null : cellSize type .null = 0 := rfl
    rw [Option.getD_none, null]
    omega
  | some cell =>
    have around := le_toText_of_get? found
    have within := near cell
    rw [Option.getD_some]
    omega

/-- The bodies of few rows are not too long if their texts are not. Depending on its type, a cell
takes eight bytes at most or hardly more than its own text. -/
theorem bodySize_lt (few : rows.length ≤ rowLimit) (small : textSize rows < sizeLimit)
    (name : String) :
    bodySize (cellsOf rows name) < sizeLimit := by
  have length : (cellsOf rows name).length = rows.length := List.length_map _
  have bits : bitmapLength rows.length ≤ rows.length := by
    rw [bitmapLength]
    omega
  rw [bodySize, length]
  rcases cellSize_le (inferType (cellsOf rows name)) with short | near
  · have cells :=
      List.sum_le_card_nsmul
        ((cellsOf rows name).map (cellSize (inferType (cellsOf rows name)))) 8 (by
      intro size among
      obtain ⟨cell, -, rfl⟩ := List.mem_map.mp among
      exact short cell)
    rw [List.length_map, length, Nat.nsmul_eq_mul] at cells
    have large : rowLimit * 9 < sizeLimit := by decide
    omega
  · -- Each row has a presence bit, and the text of a row has room for it beside the cell.
    have rest :
        rows.length + ((cellsOf rows name).map (cellSize (inferType (cellsOf rows name)))).sum
        ≤ textSize rows := by
      generalize inferType (cellsOf rows name) = type at near
      clear few small length bits
      induction rows with
      | nil => exact Nat.le_refl 0
      | cons row rest inductionHypothesis =>
        have first := cellSize_lt_toText near row name
        simp only [cellsOf, textSize, List.map_cons, List.sum_cons,
          List.length_cons] at inductionHypothesis ⊢
        omega
    omega

end Texts

/-- A cell with a value as its column takes it: the type of the column holds it and is not that of
columns without values, a column of truth values has nothing else, and the cell is written with a
byte at least, or refused for its length. -/
structure Taken (name : String) (type : ColumnType) (cell : Value) : Prop where
  holds : type.Holds cell
  valued : type ≠ .null
  truth : type = .bool → ∃ value, cell = .bool value
  written : (∃ bytes, writeCell name type cell = .ok bytes ∧ bytes ≠ []) ∨
    writeCell name type cell = .error (.cellTooLong name)

/-- Cells that are held and not null take a byte at least. -/
theorem cellSize_pos {type : ColumnType} {cell : Value} (holds : type.Holds cell)
    (present : cell.isNull = false) :
    0 < cellSize type cell := by
  cases holds with
  | null => cases present
  | utf8 | json =>
    rw [cellSize, present]
    exact Nat.add_pos_left (by decide) _
  | bool | int64 | float | widened => exact Nat.succ_pos _

/-- A cell that a column of its type holds is taken into the bytes of that type. -/
theorem taken_of_holds {name : String} {type : ColumnType} {cell : Value} (holds : type.Holds cell)
    (present : cell.isNull = false) : Taken name type cell := by
  constructor
  case holds => exact holds
  case valued =>
    rintro rfl
    cases holds
    cases present
  case truth =>
    rintro rfl
    cases holds with
    | null => cases present
    | bool value => exact ⟨value, rfl⟩
  case written =>
    have positive := cellSize_pos holds present
    have measured : Measured _ _ (writeCell name type cell) := measured_writeCell holds
    cases outcome : writeCell name type cell with
    | error fault =>
      rw [outcome] at measured
      cases measured with
      | refused => exact .inr rfl
    | ok bytes =>
      rw [outcome] at measured
      cases measured with
      | written _ exact => exact .inl ⟨bytes, rfl, List.ne_nil_of_length_pos (exact ▸ positive)⟩

/-- Rows have a batch exactly if they keep the limits of the format, and no type stands in the way.
Where their texts take less than 4 GiB these are the number of rows and the lengths of keys;
otherwise the sizes of bodies come to them. Every refusal tells a limit that is exceeded, and every
cell with a value is taken by its column. The size of a body is measured beside writing it, so that
its bound is compared once. -/
theorem encode_exact (rows : List Row) :
    (textSize rows < sizeLimit → ((∃ bytes, encode rows = .ok bytes) ↔ WithinLimits rows)) ∧
      ((∃ bytes, encode rows = .ok bytes) ↔ WithinLimits rows ∧ Sized rows) ∧
      (∀ refusal, encode rows = .error refusal → Exceeds rows refusal) ∧
      ∀ name, ∀ cell ∈ cellsOf rows name, cell.isNull = false →
        Taken name (inferType (cellsOf rows name)) cell := by
  refine ⟨fun small => ?_, exists_encode_iff, fun refusal refused => exceeds_of_encode refused, ?_⟩
  · rw [exists_encode_iff]
    exact and_iff_left_of_imp fun within name _ => bodySize_lt within.few small name
  · intro name cell member present
    exact taken_of_holds (holds_inferType member) present

end LedgerIntake.Batch
