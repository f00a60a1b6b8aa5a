import LedgerIntake.Batch.Reader
import LedgerIntake.Proofs.Outcome
import LedgerIntake.Proofs.Text.Size

/-!
# Refusals of a payload

The wording of a refusal repeats parts of the payload: names, numbers, and bytes of the header.
Reading bounds all of them, because the reader never stands past the end of the payload, a name is
no longer than its length field can tell, and a float that is refused is not finite. So the wording
is short even if the payload is not.
-/

namespace LedgerIntake.Batch

open Json

/-- The most bytes that a column's name takes once it is decoded, also if it had to be patched. -/
def nameBound : Nat := 4 * 0xffff

/-- What a refusal tells of a column is a small number or a float that is not finite. -/
def ColumnFault.Moderate : ColumnFault → Prop
  | .reservedBytes offset => offset < UInt64.size
  | .notFinite value => value.isFinite = false
  | .unusedBytes count => count < UInt64.size
  | _ => True

/-- What a refusal repeats of a payload is a name of bounded length, a
small number, or a few bytes. -/
def BatchError.Moderate : BatchError → Prop
  | .header (.magic found) => found.length ≤ 4
  | .header (.rowsWithoutColumns rows) => rows < UInt64.size
  | .truncated offset needed available =>
    offset < UInt64.size ∧ needed < UInt64.size ∧ available < UInt64.size
  | .column name fault => name.utf8ByteSize ≤ nameBound ∧ fault.Moderate
  | .columnType name _ => name.utf8ByteSize ≤ nameBound
  | .duplicateColumn name => name.utf8ByteSize ≤ nameBound
  | .trailingBytes offset remaining => offset < UInt64.size ∧ remaining < UInt64.size
  | .tooManyRows rows limit => rows < UInt64.size ∧ limit < UInt64.size
  | .encode _ => False
  | _ => True

namespace Cursor

/-- The offset at which the bytes of a cursor end. -/
def limit (cursor : Cursor) : Nat := cursor.offset + cursor.rest.length

/-- Bytes are taken in order and all that are asked for, or the read met
the end of the cursor before. -/
theorem take_spec (cursor : Cursor) (needed : Nat) :
    Ensures (cursor.take needed)
      (fun taken => taken.1.length = needed ∧ taken.2.offset = cursor.offset + needed ∧
        cursor.rest = taken.1 ++ taken.2.rest)
      (fun refusal => refusal = .truncated cursor.offset needed cursor.rest.length ∧
        cursor.rest.length < needed) := by
  unfold take
  rw [List.splitAt_eq]
  dsimp only
  by_cases full : (cursor.rest.take needed).length = needed
  · rw [if_pos full]
    exact ⟨full, rfl, (List.take_append_drop needed cursor.rest).symm⟩
  · rw [if_neg full]
    rw [List.length_take] at full
    have short : cursor.rest.length < needed := by omega
    refine ⟨?_, short⟩
    rw [List.length_take, Nat.min_eq_right (Nat.le_of_lt short)]

variable {cursor : Cursor}

/-- A cursor keeps its end while bytes are taken from it, and is refused
moderately if too many are asked for. -/
theorem take_moderate (needed : Nat) (inside : cursor.limit < UInt64.size)
    (small : needed < UInt64.size) :
    Ensures (cursor.take needed)
      (fun taken => taken.1.length = needed ∧ taken.2.offset = cursor.offset + needed ∧
        taken.2.limit = cursor.limit) BatchError.Moderate := by
  refine (take_spec cursor needed).mono ?_ ?_
  · rintro ⟨taken, later⟩ ⟨length, offset, split⟩
    have total := congrArg List.length split
    rw [List.length_append] at total
    refine ⟨length, offset, ?_⟩
    simp only [limit] at *
    omega
  · rintro refusal ⟨rfl, short⟩
    simp only [limit] at inside
    exact ⟨by omega, small, by omega⟩

/-- A number is read below the bound of its width, and refused with moderate numbers. -/
theorem number_moderate (width : Nat) (inside : cursor.limit < UInt64.size) (narrow : width ≤ 8) :
    Ensures (cursor.number width)
      (fun read => read.1 < 1 <<< (8 * width) ∧ read.2.limit = cursor.limit)
        BatchError.Moderate := by
  have small : width < UInt64.size := Nat.lt_of_le_of_lt narrow (by decide)
  refine (take_moderate width inside small).bind ?_
  rintro ⟨bytes, later⟩ ⟨length, -, kept⟩
  refine ⟨?_, kept⟩
  have bounded := Bytes.ofLittleEndian_lt bytes
  rwa [length] at bounded

/-- Sized content is read, or refused with moderate numbers. -/
theorem sized_moderate (inside : cursor.limit < UInt64.size) :
    Ensures cursor.sized (fun taken => taken.2.limit = cursor.limit) BatchError.Moderate := by
  refine (number_moderate 4 inside (by decide)).bind ?_
  rintro ⟨length, behind⟩ ⟨bounded, kept⟩
  have small : length < UInt64.size := Nat.lt_trans bounded (by decide)
  refine (take_moderate length (kept ▸ inside) small).mono ?_ (fun _ moderate => moderate)
  rintro ⟨taken, later⟩ ⟨-, -, same⟩
  exact same.trans kept

end Cursor

/-- A float that is no number of JSON is not finite; this is the only
reason for which it is refused. -/
theorem not_finite_of_ofBinary64 (value : Binary64) (none : Number.ofBinary64? value = none) :
    value.isFinite = false := by
  unfold Number.ofBinary64? at none
  split at none
  · contradiction
  · next infinite => exact Bool.eq_false_iff.mpr infinite

section Columns

variable {name : String} {cursor : Cursor}

/-- Reading a cell keeps the end of the body and is refused
moderately, by one case for each type. -/
theorem readCell_moderate (type : ColumnType) (short : name.utf8ByteSize ≤ nameBound)
    (inside : cursor.limit < UInt64.size) :
    Ensures (readCell name type cursor)
    (fun read => read.2.limit = cursor.limit) BatchError.Moderate := by
  cases type with
  | null => exact ⟨short, trivial⟩
  | bool =>
    refine (Cursor.number_moderate 1 inside (by decide)).bind ?_
    rintro ⟨code, later⟩ ⟨-, kept⟩
    dsimp only
    split
    · exact kept
    · split
      · exact kept
      · exact ⟨short, trivial⟩
  | int64 =>
    refine (Cursor.number_moderate 8 inside (by decide)).bind ?_
    rintro ⟨pattern, later⟩ ⟨-, kept⟩
    exact kept
  | float64 =>
    refine (Cursor.number_moderate 8 inside (by decide)).bind ?_
    rintro ⟨pattern, later⟩ ⟨-, kept⟩
    dsimp only
    split
    · exact kept
    · next infinite => exact ⟨short, not_finite_of_ofBinary64 _ infinite⟩
  | utf8 =>
    refine (Cursor.sized_moderate inside).bind ?_
    rintro ⟨bytes, later⟩ kept
    dsimp only
    split
    · exact kept
    · exact ⟨short, trivial⟩
  | json =>
    refine (Cursor.sized_moderate inside).bind ?_
    rintro ⟨bytes, later⟩ kept
    dsimp only
    split
    · exact kept
    · exact ⟨short, trivial⟩

/-- Cells are read, or refused with moderate numbers. The induction is on which are present. -/
theorem readCells_moderate (type : ColumnType) (short : name.utf8ByteSize ≤ nameBound)
    (inside : cursor.limit < UInt64.size) (read : List Value) (present : List Bool) :
    Ensures (readCells name type cursor read present) (fun result => result.2.limit = cursor.limit)
      BatchError.Moderate := by
  induction present generalizing cursor read with
  | nil => exact (rfl : cursor.limit = cursor.limit)
  | cons held rest inductionHypothesis =>
    cases held with
    | false => exact inductionHypothesis inside (.null :: read)
    | true =>
      have cell := readCell_moderate type short inside
      rw [readCells]
      cases outcome : readCell name type cursor with
      | error refusal => exact cell.of_error outcome
      | ok first =>
        obtain ⟨value, later⟩ := first
        have kept : later.limit = cursor.limit := cell.of_ok outcome
        refine (inductionHypothesis (kept ▸ inside) (value :: read)).mono
          ?_ (fun _ moderate => moderate)
        rintro ⟨cells, last⟩ same
        exact same.trans kept

/-- A body is read, or refused with moderate numbers: its bitmap has a bit for each of few rows. -/
theorem readBody_moderate (type : ColumnType) (rows : Nat) (short : name.utf8ByteSize ≤ nameBound)
    (inside : cursor.limit < UInt64.size) (few : rows ≤ rowLimit) :
    Ensures (readBody name type rows cursor) (fun _ => True) BatchError.Moderate := by
  have width : bitmapLength rows < UInt64.size := by
    simp only [rowLimit] at few
    simp only [bitmapLength, UInt64.size]
    omega
  refine (Cursor.take_moderate _ inside width).bind ?_
  rintro ⟨bitmap, behind⟩ ⟨-, -, kept⟩
  refine (readCells_moderate type short (kept ▸ inside) [] (presence bitmap rows)).bind ?_
  rintro ⟨cells, last⟩ same
  dsimp only
  split
  · trivial
  · refine ⟨short, ?_⟩
    have ending : last.limit < UInt64.size := by rw [same, kept]; exact inside
    simp only [Cursor.limit] at ending
    show last.rest.length < UInt64.size
    omega

/-- Reading a column keeps the end of the payload and gives it a name of bounded length. The name
may take two bytes of length, so every refusal that quotes it stays moderate. -/
theorem readColumn_moderate (rows : Nat) (inside : cursor.limit < UInt64.size)
    (few : rows ≤ rowLimit) :
    Ensures (readColumn rows cursor)
      (fun read => read.1.name.utf8ByteSize ≤ nameBound ∧ read.2.limit = cursor.limit)
      BatchError.Moderate := by
  refine (Cursor.number_moderate 2 inside (by decide)).bind ?_
  rintro ⟨nameLength, behindLength⟩ ⟨narrow, keptLength⟩
  have nameFits : nameLength ≤ 0xffff := Nat.le_of_lt_succ narrow
  have insideName : behindLength.limit < UInt64.size := keptLength ▸ inside
  refine (Cursor.take_moderate nameLength insideName (Nat.lt_trans narrow (by decide))).bind ?_
  rintro ⟨nameBytes, behindName⟩ ⟨nameSize, -, keptName⟩
  have insideTrailer : behindName.limit < UInt64.size := keptName ▸ insideName
  dsimp only at nameSize ⊢
  split
  · have bounded := Text.utf8ByteSize_decodeLossy_le nameBytes
    refine ⟨?_, trivial⟩
    show (Utf8.decodeLossy nameBytes).utf8ByteSize ≤ nameBound
    simp only [nameBound]
    omega
  · next name decoded =>
    have bounded := Text.utf8ByteSize_of_decode nameBytes name decoded
    have short : name.utf8ByteSize ≤ nameBound := by
      simp only [nameBound]
      omega
    refine (Cursor.take_moderate 8 insideTrailer (by decide)).bind ?_
    rintro ⟨trailer, behindTrailer⟩ ⟨trailerSize, offset, keptTrailer⟩
    have insideBody : behindTrailer.limit < UInt64.size := keptTrailer ▸ insideTrailer
    dsimp only at trailerSize offset ⊢
    split
    · refine ⟨short, ?_⟩
      simp only [Cursor.limit] at insideBody
      show behindName.offset + 1 < UInt64.size
      omega
    · split
      · exact short
      · next type known =>
        have width := Bytes.ofLittleEndian_lt (trailer.drop 4)
        rw [List.length_drop, trailerSize] at width
        refine (Cursor.take_moderate _ insideBody (Nat.lt_trans width (by decide))).bind ?_
        rintro ⟨body, last⟩ ⟨bodySize, offset, keptBody⟩
        -- The body ends where the cursor behind it begins.
        have insideCells : (Cursor.mk behindTrailer.offset body).limit < UInt64.size := by
          simp only [Cursor.limit] at *
          omega
        refine (readBody_moderate type rows short insideCells few).bind ?_
        intro cells _
        exact ⟨short, keptBody.trans (keptTrailer.trans (keptName.trans keptLength))⟩

/-- Columns are read, or refused with moderate numbers. The induction
is on how many are asked for. -/
theorem readColumns_moderate (rows count : Nat) (read : List Column)
    (inside : cursor.limit < UInt64.size) (few : rows ≤ rowLimit) :
    Ensures (readColumns rows count read cursor) (fun result => result.2.limit = cursor.limit)
      BatchError.Moderate := by
  induction count generalizing cursor read with
  | zero => exact (rfl : cursor.limit = cursor.limit)
  | succ count inductionHypothesis =>
    have first := readColumn_moderate rows inside few
    rw [readColumns]
    cases outcome : readColumn rows cursor with
    | error refusal => exact first.of_error outcome
    | ok result =>
      obtain ⟨column, later⟩ := result
      obtain ⟨short, kept⟩ := first.of_ok outcome
      dsimp only at short kept ⊢
      split
      · exact short
      · refine (inductionHypothesis (column :: read) (kept ▸ inside)).mono ?_ (fun _ same => same)
        intro result same
        exact same.trans kept

end Columns

/-- A header that is read stands complete and declares no more rows than one batch may carry. -/
theorem Header.decode_moderate (payload : Bytes) :
    Ensures (Header.decode payload)
      (fun header => header.rowCount.toNat ≤ rowLimit ∧ headerSize ≤ payload.length)
      BatchError.Moderate := by
  have front : (payload.take headerSize).length ≤ headerSize := List.length_take_le _ _
  have small : headerSize < UInt64.size := by decide
  unfold Header.decode
  dsimp only
  split
  · trivial
  · split
    · exact ⟨by decide, by decide, Nat.lt_of_le_of_lt front small⟩
    · next complete =>
      have held : headerSize ≤ payload.length := by
        rw [List.length_take] at complete
        omega
      split
      · show ((payload.take headerSize).take 4).length ≤ 4
        exact List.length_take_le _ _
      · split
        · trivial
        · split
          · trivial
          · split
            · exact ⟨Nat.lt_trans (UInt32.toNat_lt_size _) (by decide), by decide⟩
            · next fits =>
              split
              · exact Nat.lt_trans (UInt32.toNat_lt_size _) (by decide)
              · exact ⟨Nat.le_of_not_lt fits, held⟩

/-- The columns that a header declares take a moderate number of bytes, as counts have
four bytes and rows are few. -/
theorem Header.leastRest_lt (header : Header) (few : header.rowCount.toNat ≤ rowLimit) :
    header.leastRest < UInt64.size := by
  have columns : header.columnCount.toNat ≤ 0xffffffff :=
    Nat.le_of_lt_succ header.columnCount.toNat_lt_size
  have width : columnOverhead + header.bitmapLength ≤ 0x100000 := by
    simp only [rowLimit] at few
    simp only [columnOverhead, Header.bitmapLength, Batch.bitmapLength]
    omega
  calc header.leastRest
      = header.columnCount.toNat * (columnOverhead + header.bitmapLength) := rfl
    _ ≤ 0xffffffff * 0x100000 := Nat.mul_le_mul columns width
    _ < UInt64.size := by decide

/-- A header is read with few rows, or refused with moderate numbers. The length of the payload is
among these, so it has to be moderate itself. -/
theorem readHeader_moderate (payload : Bytes) (position : Nat)
    (bounded : payload.length < UInt64.size) :
    Ensures (readHeader payload position).1
      (fun header => header.rowCount.toNat ≤ rowLimit ∧ headerSize ≤ payload.length)
      BatchError.Moderate := by
  have decoded := Header.decode_moderate payload
  unfold readHeader
  cases outcome : Header.decode payload with
  | error refusal => exact decoded.of_error outcome
  | ok header =>
    obtain ⟨few, held⟩ := decoded.of_ok outcome
    dsimp only
    split
    · exact ⟨by decide, header.leastRest_lt few, by omega⟩
    · exact ⟨few, held⟩

/-- Adding a column to rows leaves no more rows than there were, even
where the column is shorter. -/
theorem length_foldl_zipWith_le (columns : List Column) (rows : List Row) :
    (columns.foldl
      (fun rows column =>
        List.zipWith (fun row cell => Members.insert row column.name cell) rows column.cells)
      rows).length ≤ rows.length := by
  induction columns generalizing rows with
  | nil => exact Nat.le_refl _
  | cons column rest inductionHypothesis =>
    refine Nat.le_trans (inductionHypothesis _) ?_
    rw [List.length_zipWith]
    exact Nat.min_le_left _ _

/-- A table has no more rows than it counts, as its rows begin as that many empty ones. -/
theorem Table.length_rows_le (table : Table) : table.rows.length ≤ table.rowCount := by
  have bounded := length_foldl_zipWith_le table.columns (List.replicate table.rowCount [])
  rwa [List.length_replicate] at bounded

/-- Whatever a payload below 2⁶⁴ bytes is refused for can be told in few words. -/
theorem decode_moderate (payload : Bytes) (bounded : payload.length < UInt64.size) :
    Ensures (decode payload) (fun _ => True) BatchError.Moderate := by
  refine (readHeader_moderate payload 0 bounded).bind ?_
  rintro header ⟨few, held⟩
  have inside : (Cursor.mk headerSize (payload.drop headerSize)).limit < UInt64.size := by
    simp only [Cursor.limit, List.length_drop]
    omega
  refine (readColumns_moderate _ header.columnCount.toNat [] inside few).bind ?_
  rintro ⟨columns, last⟩ kept
  have ending : last.limit < UInt64.size := kept ▸ inside
  simp only [Cursor.limit] at ending
  dsimp only at ending ⊢
  split
  · trivial
  · exact ⟨by omega, by omega⟩

/-- A payload that is read has no more rows than one batch may carry, however long it is. -/
theorem length_rows_of_decode (payload : Bytes) (table : Table)
    (decoded : decode payload = .ok table) :
    table.rows.length ≤ rowLimit := by
  refine Nat.le_trans table.length_rows_le ?_
  unfold decode at decoded
  cases header : (readHeader payload 0).1 with
  | error refusal =>
    rw [header] at decoded
    contradiction
  | ok found =>
    have few : found.rowCount.toNat ≤ rowLimit := by
      unfold readHeader at header
      cases front : Header.decode payload with
      | error refusal =>
        rw [front] at header
        contradiction
      | ok same =>
        rw [front] at header
        have bounded := (Header.decode_moderate payload).of_ok front
        dsimp only at header
        split at header
        · contradiction
        · cases header
          exact bounded.1
    rw [header] at decoded
    dsimp only [bind, Except.bind] at decoded
    split at decoded
    · contradiction
    · split at decoded
      · cases decoded
        exact few
      · contradiction

section Wording

open Text

/-- The most bytes that the wording of a refusal takes. -/
def messageBound : Nat := 0x80000

/-- Four bytes at most are listed in a short text, with a mark around each
and the commas between them. -/
theorem utf8ByteSize_listBytes_le (bytes : Bytes) (few : bytes.length ≤ 4) :
    (listBytes bytes).utf8ByteSize ≤ 90 := by
  have items := utf8ByteSize_intercalate_le ", " (bytes.map fun byte => byte.toNat.repr) 20 (by
    intro part among
    obtain ⟨byte, -, rfl⟩ := List.mem_map.mp among
    exact utf8ByteSize_repr_le _ (Nat.lt_trans byte.toNat_lt_size (by decide)))
  rw [List.length_map] at items
  have most : bytes.length * (20 + ", ".utf8ByteSize) ≤ 4 * (20 + ", ".utf8ByteSize) :=
    Nat.mul_le_mul_right _ few
  have inner := Nat.le_trans items most
  exact Nat.le_trans
    (utf8ByteSize_append_le (utf8ByteSize_append_le (Nat.le_refl _) inner) (Nat.le_refl _))
      (by decide)

/-- A number in hexadecimal has two letters in front and two digits for every byte. -/
theorem utf8ByteSize_hexadecimal (width value : Nat) :
    (hexadecimal width value).utf8ByteSize = 2 + 2 * width := by
  have front : "0x".utf8ByteSize = 2 := by decide
  rw [hexadecimal, String.utf8ByteSize_append, utf8ByteSize_toHex, Bytes.length_bigEndian, front]

/-- What is not finite is written as one of a few words, with a sign or without. -/
theorem utf8ByteSize_write_le (value : Binary64) (infinite : value.isFinite = false) :
    (Layout.measurement.write value).utf8ByteSize ≤ 4 := by
  have great : Binary64.infinite ≤ value.magnitude := by
    simp only [Binary64.isFinite, decide_eq_false_iff_not] at infinite
    exact Nat.le_of_not_lt infinite
  by_cases number : value.isNaN = true
  · simp only [Layout.write, number, if_true]
    decide
  · have exactly : value.isInfinite = true := by
      simp only [Binary64.isNaN, decide_eq_true_eq] at number
      simp only [Binary64.isInfinite, decide_eq_true_eq]
      omega
    simp only [Layout.write, number, exactly, if_true, Bool.false_eq_true, if_false]
    cases value.isNegative <;> decide

/-- The wording of a fault of a column is a line, or a line and what a parser says of a cell. -/
theorem ColumnFault.utf8ByteSize_message_le [Diagnostics] (fault : ColumnFault)
    (moderate : fault.Moderate) : fault.message.utf8ByteSize ≤ 0x20000 := by
  cases fault with
  | nameNotUtf8 => exact Nat.le_of_ble_eq_true rfl
  | reservedBytes offset =>
    exact Nat.le_trans
      (utf8ByteSize_append_le (Nat.le_refl _) (utf8ByteSize_repr_le offset moderate))
      (by decide)
  | presentNull => exact Nat.le_of_ble_eq_true rfl
  | boolByte byte =>
    exact Nat.le_trans
      (utf8ByteSize_append_le (Nat.le_refl _) (Nat.le_of_eq (utf8ByteSize_hexadecimal 1 _)))
        (by decide)
  | notFinite value =>
    exact Nat.le_trans
      (utf8ByteSize_append_le (Nat.le_refl _) (utf8ByteSize_write_le value moderate))
      (by decide)
  | textNotUtf8 => exact Nat.le_of_ble_eq_true rfl
  | unreadableJson cell =>
    exact Nat.le_trans (utf8ByteSize_append_le (Nat.le_refl _) (Diagnostics.short_ofJson cell))
      (by decide)
  | unusedBytes count =>
    exact Nat.le_trans
      (utf8ByteSize_append_le (utf8ByteSize_repr_le count moderate) (Nat.le_refl _))
      (by decide)

/-- The wording of a refusal is short: the longest part of it is the name of a column, which takes
at most three bytes for each byte that was declared. -/
theorem BatchError.utf8ByteSize_message_le [Diagnostics] (refusal : BatchError)
    (moderate : refusal.Moderate) : refusal.message.utf8ByteSize ≤ messageBound := by
  have own (text : String) : text.utf8ByteSize ≤ text.utf8ByteSize := Nat.le_refl _
  cases refusal with
  | empty => exact Nat.le_of_ble_eq_true rfl
  | header fault =>
    cases fault with
    | magic found =>
      have found := utf8ByteSize_listBytes_le found moderate
      have magic := utf8ByteSize_listBytes_le magic (by decide)
      exact Nat.le_trans
        (utf8ByteSize_append_le (own _)
          (utf8ByteSize_append_le
            (utf8ByteSize_append_le (utf8ByteSize_append_le (own _) found) (own _))
            magic)) (by decide)
    | flags value =>
      have flags := Nat.le_of_eq (utf8ByteSize_hexadecimal 2 value.toNat)
      exact Nat.le_trans (utf8ByteSize_append_le (own _) (utf8ByteSize_append_le (own _) flags))
        (by decide)
    | rowsWithoutColumns rows =>
      have number := utf8ByteSize_repr_le rows moderate
      exact Nat.le_trans (utf8ByteSize_append_le (own _) (utf8ByteSize_append_le number (own _)))
        (by decide)
  | version found =>
    have version := Nat.le_of_eq (utf8ByteSize_hexadecimal 2 found.toNat)
    exact Nat.le_trans (utf8ByteSize_append_le (own _) version) (by decide)
  | truncated offset needed available =>
    obtain ⟨small, wanted, held⟩ := moderate
    have offset := utf8ByteSize_repr_le offset small
    have needed := utf8ByteSize_repr_le needed wanted
    have available := utf8ByteSize_repr_le available held
    exact Nat.le_trans
      (utf8ByteSize_append_le (utf8ByteSize_append_le (utf8ByteSize_append_le
        (utf8ByteSize_append_le
          (utf8ByteSize_append_le (utf8ByteSize_append_le (own _) offset) (own _))
          needed) (own _)) available) (own _)) (by decide)
  | column name fault =>
    have told := fault.utf8ByteSize_message_le moderate.2
    exact Nat.le_trans
      (utf8ByteSize_append_le
        (utf8ByteSize_append_le (utf8ByteSize_append_le (own _) moderate.1) (own _))
        told) (by decide)
  | columnType name tag =>
    have tag := Nat.le_of_eq (utf8ByteSize_hexadecimal 1 tag.toNat)
    exact Nat.le_trans
      (utf8ByteSize_append_le
        (utf8ByteSize_append_le (utf8ByteSize_append_le (own _) moderate) (own _)) tag)
      (by decide)
  | duplicateColumn name =>
    exact Nat.le_trans
      (utf8ByteSize_append_le (utf8ByteSize_append_le (own _) moderate) (own _)) (by decide)
  | trailingBytes offset remaining =>
    have offset := utf8ByteSize_repr_le offset moderate.1
    have remaining := utf8ByteSize_repr_le remaining moderate.2
    exact Nat.le_trans (utf8ByteSize_append_le (utf8ByteSize_append_le remaining (own _)) offset)
      (by decide)
  | tooManyRows rows limit =>
    have rows := utf8ByteSize_repr_le rows moderate.1
    have limit := utf8ByteSize_repr_le limit moderate.2
    exact Nat.le_trans
      (utf8ByteSize_append_le
        (utf8ByteSize_append_le (utf8ByteSize_append_le (utf8ByteSize_append_le (own _)
        rows) (own _)) limit) (own _)) (by decide)
  | encode fault => exact moderate.elim

end Wording

end LedgerIntake.Batch
