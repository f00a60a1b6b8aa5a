import LedgerIntake.Proofs.Batch.Indexing

/-!
# Where a truncated batch breaks off

A payload is truncated where the bytes of a field that has begun run out. Which field that is, is
said here without a reader, beside the grammar of what is complete: everything in front of the field
is complete and sound, and the field itself needs more bytes than there are up to the end that it
has to keep. For a field inside the body of a column that end is the declared end of the body, for
every other field it is the end of the payload.

Positions count from the front of the bytes that a relation is about. One law for each reader says
that it is refused for too few bytes exactly if these bytes break off, at a position that counts
from where the reader begins; so no position has to be moved where a reader calls another one.
-/

namespace LedgerIntake.Batch

open Json

section Definitions

/-- The bytes that are read before any others of a cell: all of it, or its length. -/
def ColumnType.leadSize : ColumnType → Nat
  | .null => 0
  | .bool => 1
  | .int64 => 8
  | .float64 => 8
  | .utf8 => 4
  | .json => 4

/-- A cell with a value begins in front of some bytes, which are too few for one of its fields. -/
inductive CellBreaks (type : ColumnType) : (bytes : Bytes) → (passed needed available : Nat) → Prop
  | lead (begun : Bytes) (short : begun.length < type.leadSize) :
      CellBreaks type begun 0 type.leadSize begun.length
  /-- A text or a value of which the length is complete. -/
  | content (sized : type = .utf8 ∨ type = .json) (size : Nat)
    (fits : size < sizeLimit) (begun : Bytes)
      (short : begun.length < size) :
      CellBreaks type (Bytes.littleEndian 4 size ++ begun) 4 size begun.length

/-- Cells of which some have a value break off within the first that is not complete. -/
inductive CellsBreak (type : ColumnType) : List Bool → (bytes : Bytes) →
    (passed needed available : Nat) → Prop
  | absent {present : List Bool} {bytes : Bytes} {passed needed available : Nat}
      (later : CellsBreak type present bytes passed needed available) :
      CellsBreak type (false :: present) bytes passed needed available
  | here {present : List Bool} {bytes : Bytes} {passed needed available : Nat}
      (broken : CellBreaks type bytes passed needed available) :
      CellsBreak type (true :: present) bytes passed needed available
  | behind {present : List Bool} {cell : Value} {front bytes : Bytes}
    {passed needed available : Nat}
      (first : CellBytes type cell front)
        (later : CellsBreak type present bytes passed needed available) :
      CellsBreak type (true :: present) (front ++ bytes) (front.length + passed) needed available

/-- A body breaks off within its bitmap or within one of its cells. -/
inductive BodyBreaks (type : ColumnType) (rows : Nat) :
    (body : Bytes) → (passed needed available : Nat) → Prop
  | bitmap (begun : Bytes) (short : begun.length < bitmapLength rows) :
      BodyBreaks type rows begun 0 (bitmapLength rows) begun.length
  | cells (bitmap values : Bytes) (width : bitmap.length = bitmapLength rows)
    {passed needed available : Nat}
      (broken : CellsBreak type ((List.range rows).map (presentAt bitmap))
        values passed needed available) :
      BodyBreaks type rows (bitmap ++ values) (bitmap.length + passed) needed available

/-- A column breaks off within one of its fields, or its body does. The body has all bytes that it
declares in the latter case, and what stands behind it plays no part. -/
inductive ColumnBreaks (rows : Nat) : (bytes : Bytes) → (passed needed available : Nat) → Prop
  | nameLength (begun : Bytes) (short : begun.length < 2) : ColumnBreaks rows begun 0 2 begun.length
  | name (size : Nat) (fits : size < 1 <<< 16) (begun : Bytes) (short : begun.length < size) :
      ColumnBreaks rows (Bytes.littleEndian 2 size ++ begun) 2 size begun.length
  | trailer (name : String) (fits : name.utf8ByteSize < 1 <<< 16)
    (begun : Bytes) (short : begun.length < 8) :
      ColumnBreaks rows (Bytes.littleEndian 2 name.utf8ByteSize ++ (Utf8.encode name ++ begun))
        (2 + name.utf8ByteSize) 8 begun.length
  | body (name : String) (fits : name.utf8ByteSize < 1 <<< 16) (type : ColumnType) (size : Nat)
      (small : size < sizeLimit) (begun : Bytes) (short : begun.length < size) :
      ColumnBreaks rows (columnFront name type size ++ begun)
        (2 + name.utf8ByteSize + 8) size begun.length
  | inside (name : String) (fits : name.utf8ByteSize < 1 <<< 16)
    (type : ColumnType) (body behind : Bytes)
      (small : body.length < sizeLimit) {passed needed available : Nat}
      (broken : BodyBreaks type rows body passed needed available) :
      ColumnBreaks rows (columnFront name type body.length ++ (body ++ behind))
        (2 + name.utf8ByteSize + 8 + passed) needed available

/-- A number of columns break off within the first that is not complete. Those in front of it have
different names, and none that was used before. -/
inductive ColumnsBreak (rows : Nat) :
    (count : Nat) → (used : List String) → (bytes : Bytes) → (passed needed available : Nat) → Prop
  | here {count : Nat} {used : List String} {bytes : Bytes} {passed needed available : Nat}
      (broken : ColumnBreaks rows bytes passed needed available) :
      ColumnsBreak rows (count + 1) used bytes passed needed available
  | behind {count : Nat} {used : List String} {column : Column}
    {front bytes : Bytes} {passed needed available : Nat}
      (first : ColumnBytes rows column front) (fresh : column.name ∉ used)
      (later : ColumnsBreak rows count (column.name :: used) bytes passed needed available) :
      ColumnsBreak rows (count + 1) used (front ++ bytes) (front.length + passed) needed available

/-- A payload breaks off within its header, behind a header that declares more columns than the rest
can hold, or within one of its columns. -/
inductive Breaks : (payload : Bytes) → (offset needed available : Nat) → Prop
  | header (begun : Bytes) (nonempty : begun ≠ []) (short : begun.length < headerSize) :
      Breaks begun 0 headerSize begun.length
  | declared (columnCount rowCount : UInt32)
      (allowed : Header.Allowed columnCount rowCount) (rest : Bytes)
      (short : rest.length < columnCount.toNat * (columnOverhead + bitmapLength rowCount.toNat)) :
      Breaks ((Header.ofCounts columnCount rowCount).encode ++ rest) headerSize
        (columnCount.toNat * (columnOverhead + bitmapLength rowCount.toNat)) rest.length
  | columns (columnCount rowCount : UInt32)
      (allowed : Header.Allowed columnCount rowCount) (rest : Bytes)
      (enough : columnCount.toNat * (columnOverhead + bitmapLength rowCount.toNat) ≤ rest.length)
      {passed needed available : Nat}
      (broken : ColumnsBreak rowCount.toNat columnCount.toNat [] rest passed needed available) :
      Breaks ((Header.ofCounts columnCount rowCount).encode ++ rest)
        (headerSize + passed) needed available

end Definitions

namespace Cursor

variable {cursor : Cursor} {offset asked available : Nat}

/-- A number breaks off exactly where its bytes do, since what is read of them is never refused. -/
theorem number_eq_truncated_iff {width : Nat} :
    cursor.number width = .error (.truncated offset asked available) ↔
      cursor.Short width offset asked available := by
  rw [number, bind_eq_error_iff, take_eq_truncated_iff]
  constructor
  · rintro (short | ⟨_, -, returned⟩)
    · exact short
    · cases returned
  · exact .inl

/-- Bytes behind their length run out within the length or behind it. In the second case the length
has been read, and tells how many are missing. -/
theorem sized_eq_truncated_iff :
    cursor.sized = .error (.truncated offset asked available) ↔
      cursor.Short 4 offset asked available ∨
      ∃ size later, size < sizeLimit ∧ cursor.Passes (Bytes.littleEndian 4 size) later ∧
        later.Short size offset asked available := by
  rw [sized, bind_eq_error_iff, number_eq_truncated_iff]
  apply or_congr_right
  constructor
  · rintro ⟨⟨size, later⟩, counted, short⟩
    obtain ⟨fits, passes⟩ := exists_bytes_iff.mp (number_eq_ok_iff.mp counted)
    exact ⟨size, later, fits, passes, take_eq_truncated_iff.mp short⟩
  · rintro ⟨size, later, fits, passes, short⟩
    exact ⟨(size, later), number_eq_ok_iff.mpr (exists_bytes_iff.mpr ⟨fits, passes⟩),
      take_eq_truncated_iff.mpr short⟩

/-- Where a reader that begins at a cursor stops, if the bytes in front of it break off. -/
def Stops (cursor : Cursor) (breaks : (bytes : Bytes) → (passed needed available : Nat) → Prop)
    (offset asked available : Nat) : Prop :=
  ∃ passed, offset = cursor.offset + passed ∧ breaks cursor.rest passed asked available

/-- What breaks off behind some bytes breaks off so much farther behind their front. -/
theorem Passes.stops {cursor later : Cursor} {front : Bytes} {offset asked available : Nat}
    {breaks wider : (bytes : Bytes) → (passed needed available : Nat) → Prop}
    (passes : cursor.Passes front later)
    (stops : later.Stops breaks offset asked available)
    (behind : ∀ passed, breaks later.rest passed asked available →
      wider (front ++ later.rest) (front.length + passed) asked available) :
    cursor.Stops wider offset asked available := by
  obtain ⟨passed, rfl, broken⟩ := stops
  refine ⟨front.length + passed, by rw [passes.offset, Nat.add_assoc], ?_⟩
  rw [passes.rest]
  exact behind passed broken

end Cursor

section Cells

variable {column : String} {type : ColumnType} {cursor : Cursor} {offset asked available : Nat}

/-- A cell of fixed size breaks off within it, and nowhere else. -/
theorem stops_of_fixed (fixed : ¬(type = .utf8 ∨ type = .json)) :
    cursor.Stops (CellBreaks type) offset asked available ↔
      cursor.Short type.leadSize offset asked available := by
  constructor
  · obtain ⟨start, rest⟩ := cursor
    rintro ⟨passed, rfl, broken⟩
    cases broken with
    | lead _ short => exact ⟨rfl, rfl, rfl, short⟩
    | content sized => exact absurd sized fixed
  · rintro ⟨rfl, rfl, rfl, few⟩
    exact ⟨0, rfl, .lead _ few⟩

/-- A text or a value breaks off where bytes behind their length do, in either of the two places. -/
theorem stops_of_sized (sized : type = .utf8 ∨ type = .json) :
    cursor.Stops (CellBreaks type) offset asked available ↔
      cursor.sized = .error (.truncated offset asked available) := by
  have lead : type.leadSize = 4 := by rcases sized with rfl | rfl <;> rfl
  rw [Cursor.sized_eq_truncated_iff]
  constructor
  · obtain ⟨start, rest⟩ := cursor
    rintro ⟨passed, rfl, broken⟩
    cases broken with
    | lead _ short => exact .inl ⟨rfl, lead, rfl, lead ▸ short⟩
    | content sized size fits begun short =>
      exact .inr
        ⟨_, ⟨start + 4, begun⟩, fits, ⟨rfl, by rw [Bytes.length_littleEndian]⟩,
          rfl, rfl, rfl, short⟩
  · rintro (⟨rfl, rfl, rfl, few⟩ | ⟨size, later, fits, passes, rfl, rfl, rfl, few⟩)
    · exact ⟨0, rfl, lead ▸ .lead _ (lead.symm ▸ few)⟩
    · refine ⟨4, by rw [passes.offset, Bytes.length_littleEndian], ?_⟩
      rw [passes.rest]
      exact .content sized _ fits _ few

/-- Only the fields of a cell can be truncated, not what is made of them.
There is one case for each type. -/
theorem readCell_eq_truncated_iff :
    readCell column type cursor = .error (.truncated offset asked available) ↔
      cursor.Stops (CellBreaks type) offset asked available := by
  cases type with
  | null =>
    rw [stops_of_fixed (by decide)]
    constructor
    · intro refused
      cases refused
    · intro short
      exact absurd short.few (Nat.not_lt_zero _)
  | bool =>
    rw [stops_of_fixed (by decide), ← Cursor.number_eq_truncated_iff]
    apply bind_eq_error_iff_left
    intro read refused
    dsimp only at refused
    split at refused
    · cases refused
    · split at refused <;> cases refused
  | int64 =>
    rw [stops_of_fixed (by decide), ← Cursor.number_eq_truncated_iff]
    apply bind_eq_error_iff_left
    intro read refused
    cases refused
  | float64 =>
    rw [stops_of_fixed (by decide), ← Cursor.number_eq_truncated_iff]
    apply bind_eq_error_iff_left
    intro read refused
    dsimp only at refused
    split at refused <;> cases refused
  | utf8 | json =>
    rw [stops_of_sized (by decide)]
    apply bind_eq_error_iff_left
    intro read refused
    dsimp only at refused
    split at refused <;> cases refused

/-- Cells are refused for missing bytes exactly where one of them breaks off behind whole ones. The
induction is on the presence bits; what stops behind some bytes stops as far behind their front. -/
theorem readCells_eq_truncated_iff {present : List Bool} {read : List Value} :
    readCells column type cursor read present = .error (.truncated offset asked available) ↔
      cursor.Stops (CellsBreak type present) offset asked available := by
  induction present generalizing cursor read with
  | nil =>
    constructor
    · intro refused
      cases refused
    · rintro ⟨_, -, ⟨⟩⟩
  | cons held present inductionHypothesis =>
    cases held with
    | false =>
      rw [readCells, inductionHypothesis]
      constructor
      · rintro ⟨passed, same, later⟩
        exact ⟨passed, same, .absent later⟩
      · rintro ⟨passed, same, broken⟩
        cases broken with
        | absent later => exact ⟨passed, same, later⟩
    | true =>
      rw [readCells_true, bind_eq_error_iff, readCell_eq_truncated_iff]
      constructor
      · rintro (⟨passed, same, broken⟩ | ⟨⟨value, later⟩, first, refused⟩)
        · exact ⟨passed, same, .here broken⟩
        · obtain ⟨front, written, passes⟩ := readCell_eq_ok_iff.mp first
          exact passes.stops (inductionHypothesis.mp refused) fun passed broken =>
            .behind written broken
      · obtain ⟨start, rest⟩ := cursor
        rintro ⟨passed, same, broken⟩
        cases broken with
        | here broken => exact .inl ⟨passed, same, broken⟩
        | @behind _ cell front bytes _ _ _ written later =>
          refine .inr
            ⟨(cell, ⟨start + front.length, bytes⟩),
              readCell_eq_ok_iff.mpr ⟨front, written, rfl, rfl⟩, ?_⟩
          exact inductionHypothesis.mpr ⟨_, by rw [same, Nat.add_assoc], later⟩

end Cells

section Bodies

variable (column : String) {type : ColumnType} {rows offset asked available : Nat} {cursor : Cursor}

/-- A body is refused for missing bytes exactly where it breaks off: within its bitmap,
or within a cell behind it. -/
theorem readBody_eq_truncated_iff :
    readBody column type rows cursor = .error (.truncated offset asked available) ↔
      cursor.Stops (BodyBreaks type rows) offset asked available := by
  have cells (bitmap : Bytes) (later : Cursor) :
      (readCells column type later [] (presence bitmap rows) >>= fun read =>
        if read.2.rest.isEmpty then pure read.1
          else refuse column (.unusedBytes read.2.rest.length))
          = .error (.truncated offset asked available) ↔
        later.Stops (CellsBreak type (presence bitmap rows)) offset asked available := by
    rw [← readCells_eq_truncated_iff]
    apply bind_eq_error_iff_left
    intro read refused
    split at refused <;> cases refused
  rw [readBody, bind_eq_error_iff, Cursor.take_eq_truncated_iff]
  constructor
  · rintro (⟨rfl, rfl, rfl, few⟩ | ⟨⟨bitmap, later⟩, taken, refused⟩)
    · exact ⟨0, rfl, .bitmap _ few⟩
    · obtain ⟨width, passes⟩ := Cursor.take_eq_ok_iff.mp taken
      exact passes.stops ((cells bitmap later).mp refused) fun passed broken =>
        .cells bitmap _ width (presence_eq width ▸ broken)
  · obtain ⟨start, rest⟩ := cursor
    rintro ⟨passed, same, broken⟩
    cases broken with
    | bitmap _ short => exact .inl ⟨same, rfl, rfl, short⟩
    | cells bitmap values width broken =>
      rw [← presence_eq width] at broken
      refine .inr
        ⟨(bitmap, ⟨start + bitmap.length, values⟩), Cursor.take_eq_ok_iff.mpr ⟨width, rfl, rfl⟩, ?_⟩
      exact (cells bitmap _).mpr ⟨_, by rw [same, Nat.add_assoc], broken⟩

end Bodies

section Columns

variable {name : String} {type : ColumnType} {rows size offset asked available : Nat}
    {cursor later : Cursor}

/-- Behind a sound front, what declares more bytes than there are breaks off, and so does a body
that has all its bytes and breaks off itself. -/
theorem body_eq_truncated_iff :
    (later.take size >>= fun (body, last) =>
      readBody name type rows ⟨later.offset, body⟩ >>= fun cells =>
        (pure (⟨name, type, cells⟩, last) : Except BatchError (Column × Cursor)))
      = .error (.truncated offset asked available) ↔
        later.Short size offset asked available ∨ ∃ body behind, body.length = size ∧
          later.rest = body ++ behind ∧
          Cursor.Stops ⟨later.offset, body⟩ (BodyBreaks type rows) offset asked available := by
  have inner (body : Bytes) (last : Cursor) :
      (readBody name type rows ⟨later.offset, body⟩ >>= fun cells =>
          (pure (⟨name, type, cells⟩, last) : Except BatchError (Column × Cursor)))
        = .error (.truncated offset asked available) ↔
          Cursor.Stops ⟨later.offset, body⟩ (BodyBreaks type rows) offset asked available := by
    rw [← readBody_eq_truncated_iff name]
    apply bind_eq_error_iff_left
    intro cells returned
    cases returned
  rw [bind_eq_error_iff, Cursor.take_eq_truncated_iff]
  apply or_congr_right
  constructor
  · rintro ⟨⟨body, last⟩, taken, refused⟩
    obtain ⟨length, passes⟩ := Cursor.take_eq_ok_iff.mp taken
    exact ⟨body, last.rest, length, passes.rest, (inner body last).mp refused⟩
  · rintro ⟨body, behind, length, whole, stops⟩
    exact ⟨(body, ⟨later.offset + body.length, behind⟩),
      Cursor.take_eq_ok_iff.mpr ⟨length, whole, rfl⟩,
      (inner body _).mpr stops⟩

/-- A column that is refused for too few bytes breaks off. Its fields are followed in the order in
which they are read, and the field that fails tells the place. -/
theorem stops_of_readColumn
    (refused : readColumn rows cursor = .error (.truncated offset asked available)) :
    cursor.Stops (ColumnBreaks rows) offset asked available := by
  rcases bind_eq_error_iff.mp refused with refused | ⟨⟨nameLength, behindLength⟩, counted, refused⟩
  · obtain ⟨rfl, rfl, rfl, few⟩ := Cursor.number_eq_truncated_iff.mp refused
    exact ⟨0, rfl, .nameLength _ few⟩
  obtain ⟨fits, first⟩ := Cursor.exists_bytes_iff.mp (Cursor.number_eq_ok_iff.mp counted)
  rcases bind_eq_error_iff.mp refused with refused | ⟨⟨nameBytes, behindName⟩, taken, afterName⟩
  · obtain ⟨rfl, rfl, rfl, few⟩ := Cursor.take_eq_truncated_iff.mp refused
    refine ⟨2, by rw [first.offset, Bytes.length_littleEndian], ?_⟩
    rw [first.rest]
    exact .name _ fits _ few
  obtain ⟨rfl, second⟩ := Cursor.take_eq_ok_iff.mp taken
  clear refused
  dsimp only at afterName
  split at afterName
  · cases afterName
  next name decoded =>
  rw [Utf8.decode?_eq_some_iff] at decoded
  subst decoded
  rw [Utf8.length_encode] at fits first
  have named := first.append second
  rcases bind_eq_error_iff.mp afterName with refused
    | ⟨⟨trailer, behindTrailer⟩, taken, afterTrailer⟩
  · obtain ⟨rfl, rfl, rfl, few⟩ := Cursor.take_eq_truncated_iff.mp refused
    refine ⟨2 + name.utf8ByteSize, ?_, ?_⟩
    · rw [named.offset, List.length_append, Bytes.length_littleEndian, Utf8.length_encode]
    · rw [named.rest, List.append_assoc]
      exact .trailer name fits _ few
  obtain ⟨eight, third⟩ := Cursor.take_eq_ok_iff.mp taken
  dsimp only at afterTrailer
  split at afterTrailer
  · cases afterTrailer
  next reserved =>
  split at afterTrailer
  · cases afterTrailer
  next type typed =>
  -- What stands in front of the body is sound, so only the body is left to break off.
  have small := Bytes.ofLittleEndian_lt (trailer.drop 4)
  rw [List.length_drop, eight] at small
  rw [trailer_eq eight (Decidable.not_not.mp reserved) typed] at third
  generalize Bytes.ofLittleEndian (trailer.drop 4) = size at small third afterTrailer
  have front : cursor.Passes (columnFront name type size) behindTrailer := by
    rw [columnFront, ← List.append_assoc]
    exact named.append third
  have length := length_columnFront name type size
  rcases body_eq_truncated_iff.mp afterTrailer with
    ⟨rfl, rfl, rfl, few⟩ | ⟨body, behind, rfl, whole, passed, rfl, broken⟩
  · refine ⟨2 + name.utf8ByteSize + 8, by rw [front.offset, length], ?_⟩
    rw [front.rest]
    exact .body name fits type _ small _ few
  · refine ⟨2 + name.utf8ByteSize + 8 + passed, ?_, ?_⟩
    · rw [front.offset, length]
      exact Nat.add_assoc _ _ _
    · rw [front.rest, whole]
      exact .inside name fits type body behind small broken

/-- A column that breaks off is refused for too few bytes. In front of each place all earlier fields
are sound, so reading comes that far. -/
theorem readColumn_of_stops (stops : cursor.Stops (ColumnBreaks rows) offset asked available) :
    readColumn rows cursor = .error (.truncated offset asked available) := by
  obtain ⟨start, rest⟩ := cursor
  obtain ⟨passed, rfl, broken⟩ := stops
  dsimp only at broken
  have counted {size : Nat} (fits : size < 1 <<< 16) (behind : Bytes) :
      (⟨start, Bytes.littleEndian 2 size ++ behind⟩ : Cursor).number 2
        = .ok (size, ⟨start + 2, behind⟩) :=
    Cursor.number_eq_ok_iff.mpr
      (Cursor.exists_bytes_iff.mpr ⟨fits, rfl, by rw [Bytes.length_littleEndian]⟩)
  cases broken with
  | nameLength _ short =>
    exact bind_eq_error_iff.mpr (.inl (Cursor.number_eq_truncated_iff.mpr ⟨rfl, rfl, rfl, short⟩))
  | name size fits begun short =>
    refine bind_eq_error_iff.mpr (.inr ⟨_, counted fits begun, bind_eq_error_iff.mpr (.inl ?_)⟩)
    exact Cursor.take_eq_truncated_iff.mpr ⟨rfl, rfl, rfl, short⟩
  | trailer name fits begun short =>
    have named : (⟨start + 2, Utf8.encode name ++ begun⟩ : Cursor).take name.utf8ByteSize
        = .ok (Utf8.encode name, ⟨start + 2 + name.utf8ByteSize, begun⟩) :=
      Cursor.take_eq_ok_iff.mpr ⟨Utf8.length_encode name, rfl, by rw [Utf8.length_encode]⟩
    refine bind_eq_error_iff.mpr
      (.inr ⟨_, counted fits _, bind_eq_error_iff.mpr (.inr ⟨_, named, ?_⟩)⟩)
    dsimp only
    rw [Utf8.decode?_encode]
    refine bind_eq_error_iff.mpr (.inl (Cursor.take_eq_truncated_iff.mpr ⟨?_, rfl, rfl, short⟩))
    exact (Nat.add_assoc start 2 name.utf8ByteSize).symm
  | body name fits type _ small begun short =>
    have passes :
        (⟨start, columnFront name type asked ++ begun⟩ : Cursor).Passes
          (columnFront name type asked)
        ⟨start + (2 + name.utf8ByteSize + 8), begun⟩ := ⟨rfl, by rw [length_columnFront]⟩
    rw [readColumn_of_front fits small passes]
    exact body_eq_truncated_iff.mpr (.inl ⟨rfl, rfl, rfl, short⟩)
  | @inside name fits type body behind small passed _ _ broken =>
    have passes : (⟨start, columnFront name type body.length ++ (body ++ behind)⟩ : Cursor).Passes
        (columnFront name type body.length) ⟨start + (2 + name.utf8ByteSize + 8), body ++ behind⟩ :=
      ⟨rfl, by rw [length_columnFront]⟩
    rw [readColumn_of_front fits small passes]
    exact body_eq_truncated_iff.mpr
      (.inr ⟨body, behind, rfl, rfl, passed, (Nat.add_assoc _ _ _).symm, broken⟩)

/-- A column is refused for missing bytes exactly where it breaks off. -/
theorem readColumn_eq_truncated_iff :
    readColumn rows cursor = .error (.truncated offset asked available) ↔
      cursor.Stops (ColumnBreaks rows) offset asked available :=
  ⟨stops_of_readColumn, readColumn_of_stops⟩

/-- Columns are refused for missing bytes exactly where one of them breaks off behind columns that
are sound. The induction is on how many are asked for. -/
theorem readColumns_eq_truncated_iff (count : Nat) (read : List Column) :
    readColumns rows count read cursor = .error (.truncated offset asked available) ↔
      cursor.Stops (ColumnsBreak rows count (read.map Column.name)) offset asked available := by
  induction count generalizing cursor read with
  | zero =>
    constructor
    · intro refused
      cases refused
    · rintro ⟨_, -, ⟨⟩⟩
  | succ count inductionHypothesis =>
    have known (column : Column) : read.any (fun earlier => earlier.name = column.name)
        ↔ column.name ∈ read.map Column.name := by
      simp only [List.any_eq_true, decide_eq_true_eq, List.mem_map]
    rw [readColumns_succ, bind_eq_error_iff, readColumn_eq_truncated_iff]
    constructor
    · rintro (⟨passed, same, broken⟩ | ⟨⟨column, later⟩, first, refused⟩)
      · exact ⟨passed, same, .here broken⟩
      · obtain ⟨front, written, passes⟩ := readColumn_eq_ok_iff.mp first
        dsimp only at refused
        split at refused
        · cases refused
        · next fresh =>
          exact passes.stops ((inductionHypothesis _).mp refused) fun passed broken =>
            .behind written (fun among => fresh ((known column).mpr among)) broken
    · obtain ⟨start, rest⟩ := cursor
      rintro ⟨passed, same, broken⟩
      cases broken with
      | here broken => exact .inl ⟨passed, same, broken⟩
      | @behind _ _ column front bytes _ _ _ written fresh later =>
        refine .inr
          ⟨(column, ⟨start + front.length, bytes⟩),
            readColumn_eq_ok_iff.mpr ⟨front, written, rfl, rfl⟩, ?_⟩
        dsimp only
        rw [if_neg fun among => fresh ((known column).mp among)]
        exact (inductionHypothesis _).mpr ⟨_, by rw [same, Nat.add_assoc], later⟩

end Columns

section Payloads

variable {payload : Bytes} {offset asked available : Nat}

/-- Of what a header may be refused for, only its length is told as missing bytes. -/
theorem Header.decode_eq_truncated_iff :
    Header.decode payload = .error (.truncated offset asked available) ↔
      payload ≠ [] ∧ payload.length < headerSize ∧ offset = 0 ∧
        asked = headerSize ∧ available = payload.length := by
  by_cases short : payload.length < headerSize
  · rw [Header.decode_of_short short]
    cases payload with
    | nil =>
      constructor
      · intro refused
        cases refused
      · rintro ⟨nonempty, -⟩
        exact absurd rfl nonempty
    | cons first rest =>
      constructor
      · intro refused
        cases refused
        exact ⟨List.cons_ne_nil first rest, short, rfl, rfl, rfl⟩
      · rintro ⟨-, -, rfl, rfl, rfl⟩
        rfl
  · constructor
    · intro refused
      have whole : ¬(payload.take headerSize).length < headerSize := by
        rw [List.length_take]
        omega
      unfold Header.decode at refused
      dsimp only at refused
      rw [if_neg whole] at refused
      repeat' split at refused
      all_goals cases refused
    · rintro ⟨-, few, -⟩
      exact absurd few short

/-- A header that cannot be read decides what a payload is refused
for, whatever stands behind it. -/
theorem decode_of_header {refusal : BatchError} (refused : Header.decode payload = .error refusal) :
    decode payload = .error refusal := by
  rw [decode, readHeader, refused]
  rfl

/-- Behind a header whose counts are allowed, the rest of a payload may be too short for the columns
that the header declares, or these may break off. -/
theorem decode_encode_eq_truncated_iff (columnCount rowCount : UInt32)
    (allowed : Header.Allowed columnCount rowCount) (rest : Bytes) :
    decode ((Header.ofCounts columnCount rowCount).encode ++ rest)
        = .error (.truncated offset asked available) ↔
      Cursor.Short ⟨headerSize, rest⟩
        (columnCount.toNat * (columnOverhead + bitmapLength rowCount.toNat))
        offset asked available ∨
      columnCount.toNat * (columnOverhead + bitmapLength rowCount.toNat) ≤ rest.length ∧
        Cursor.Stops ⟨headerSize, rest⟩
          (ColumnsBreak rowCount.toNat columnCount.toNat []) offset asked available := by
  have size := length_encode_header (Header.ofCounts columnCount rowCount) rfl
  have dropped :
      ((Header.ofCounts columnCount rowCount).encode ++ rest).drop headerSize = rest := by
    rw [← size, List.drop_left]
  have read := Header.decode_eq_ok_iff.mpr ⟨allowed, rfl, by rw [dropped]⟩
  have left : ((Header.ofCounts columnCount rowCount).encode ++ rest).length - headerSize
    = rest.length := by
    rw [List.length_append, size, Nat.add_sub_cancel_left]
  have least : (Header.ofCounts columnCount rowCount).leastRest
      = columnCount.toNat * (columnOverhead + bitmapLength rowCount.toNat) := rfl
  have header : (readHeader ((Header.ofCounts columnCount rowCount).encode ++ rest) 0).1
      = if rest.length < columnCount.toNat * (columnOverhead + bitmapLength rowCount.toNat) then
          .error (.truncated headerSize
              (columnCount.toNat * (columnOverhead + bitmapLength rowCount.toNat)) rest.length)
        else .ok (Header.ofCounts columnCount rowCount) := by
    rw [readHeader, read]
    dsimp only
    rw [left, least]
    split <;> rfl
  rw [decode, header, dropped]
  by_cases short : rest.length < columnCount.toNat * (columnOverhead + bitmapLength rowCount.toNat)
  · rw [if_pos short]
    constructor
    · intro refused
      cases refused
      exact .inl ⟨rfl, rfl, rfl, short⟩
    · rintro (⟨rfl, rfl, rfl, -⟩ | ⟨enough, -⟩)
      · rfl
      · exact absurd short (Nat.not_lt.mpr enough)
  · rw [if_neg short]
    show (readColumns rowCount.toNat columnCount.toNat [] ⟨headerSize, rest⟩ >>= _) = _ ↔ _
    rw [bind_eq_error_iff_left, readColumns_eq_truncated_iff]
    · constructor
      · exact fun stops => .inr ⟨Nat.le_of_not_lt short, stops⟩
      · rintro (few | ⟨-, stops⟩)
        · exact absurd few.few short
        · exact stops
    · intro read refused
      dsimp only at refused
      split at refused <;> cases refused

/-- A payload is refused for too few bytes exactly where it breaks off. A header that is read is one
with allowed counts, behind which the columns decide. -/
theorem decode_eq_truncated_iff :
    decode payload = .error (.truncated offset asked available) ↔
      Breaks payload offset asked available := by
  constructor
  · intro refused
    cases read : Header.decode payload with
    | error refusal =>
      obtain rfl := Except.error.inj ((decode_of_header read).symm.trans refused)
      obtain ⟨nonempty, short, rfl, rfl, rfl⟩ := Header.decode_eq_truncated_iff.mp read
      exact .header payload nonempty short
    | ok header =>
      obtain ⟨allowed, same, whole⟩ := Header.decode_eq_ok_iff.mp read
      rw [same] at whole
      rw [whole] at refused ⊢
      rcases (decode_encode_eq_truncated_iff _ _ allowed _).mp refused with
        ⟨rfl, rfl, rfl, few⟩ | ⟨enough, passed, rfl, broken⟩
      · exact .declared _ _ allowed _ few
      · exact .columns _ _ allowed _ enough broken
  · intro broken
    cases broken with
    | header _ nonempty short =>
      exact decode_of_header (Header.decode_eq_truncated_iff.mpr ⟨nonempty, short, rfl, rfl, rfl⟩)
    | declared columnCount rowCount allowed rest short =>
      exact (decode_encode_eq_truncated_iff _ _ allowed rest).mpr (.inl ⟨rfl, rfl, rfl, short⟩)
    | columns columnCount rowCount allowed rest enough broken =>
      exact (decode_encode_eq_truncated_iff _ _ allowed rest).mpr (.inr ⟨enough, _, rfl, broken⟩)

end Payloads

section Truth

variable {type : ColumnType} {rows : Nat} {bytes : Bytes} {passed needed available : Nat}

/-- Within a cell, what is available are all bytes from where it breaks off. -/
theorem CellBreaks.exact (broken : CellBreaks type bytes passed needed available) :
    available < needed ∧ passed + available = bytes.length := by
  cases broken with
  | lead _ short => exact ⟨short, Nat.zero_add _⟩
  | content sized size fits begun short =>
    exact ⟨short, by rw [List.length_append, Bytes.length_littleEndian]⟩

/-- Within cells, what is available are all bytes from where they break off. The induction is on the
cells that are passed in front of that place. -/
theorem CellsBreak.exact {present : List Bool}
    (broken : CellsBreak type present bytes passed needed available) :
    available < needed ∧ passed + available = bytes.length := by
  induction broken with
  | absent later inductionHypothesis => exact inductionHypothesis
  | here broken => exact broken.exact
  | behind first later inductionHypothesis =>
    obtain ⟨few, whole⟩ := inductionHypothesis
    exact ⟨few, by rw [List.length_append, Nat.add_assoc, whole]⟩

/-- Within a body, what is available are all bytes from where it breaks off. -/
theorem BodyBreaks.exact (broken : BodyBreaks type rows bytes passed needed available) :
    available < needed ∧ passed + available = bytes.length := by
  cases broken with
  | bitmap _ short => exact ⟨short, Nat.zero_add _⟩
  | cells bitmap values width broken =>
    obtain ⟨few, whole⟩ := broken.exact
    exact ⟨few, by rw [List.length_append, Nat.add_assoc, whole]⟩

/-- What is told of missing bytes: more are needed than there are from a position up to the
end that the field there has to keep. This is the end of all bytes, or the declared end of
a body around the position. -/
structure Truthful (bytes : Bytes) (position needed available : Nat) : Prop where
  few : available < needed
  upTo : position + available = bytes.length ∨ ∃ before name type body behind,
    bytes = before ++ columnFront name type body.length ++ body ++ behind ∧
      (before ++ columnFront name type body.length).length ≤ position ∧
      position + available = (before ++ columnFront name type body.length ++ body).length

/-- Either end is one within the bytes, so what is told as available is there. -/
theorem Truthful.inside (truthful : Truthful bytes passed needed available) :
    passed + available ≤ bytes.length := by
  rcases truthful.upTo with whole | ⟨before, name, type, body, behind, rfl, -, whole⟩
  · exact Nat.le_of_eq whole
  · rw [List.length_append, whole]
    exact Nat.le_add_right _ _

/-- What is told counts from the front, whatever stands there. Offsets of parts become
offsets of the whole in this way. -/
theorem Truthful.behind (front : Bytes) (truthful : Truthful bytes passed needed available) :
    Truthful (front ++ bytes) (front.length + passed) needed available where
  few := truthful.few
  upTo := by
    rcases truthful.upTo with whole | ⟨before, name, type, body, behind, rfl, around, whole⟩
    · exact .inl (by rw [List.length_append, Nat.add_assoc, whole])
    · refine .inr ⟨front ++ before, name, type, body, behind, ?_, ?_, ?_⟩
      · simp only [List.append_assoc]
      · rw [List.append_assoc, List.length_append]
        exact Nat.add_le_add_left around _
      · rw [Nat.add_assoc, whole, ← List.length_append]
        simp only [List.append_assoc]

/-- The numbers of a refused column are true of its bytes, whether its
front breaks off or its body. -/
theorem ColumnBreaks.truthful (broken : ColumnBreaks rows bytes passed needed available) :
    Truthful bytes passed needed available := by
  cases broken with
  | nameLength _ short => exact ⟨short, .inl (Nat.zero_add _)⟩
  | name size fits begun short =>
    exact ⟨short, .inl (by rw [List.length_append, Bytes.length_littleEndian])⟩
  | trailer name fits begun short =>
    refine ⟨short, .inl ?_⟩
    rw [List.length_append, List.length_append, Bytes.length_littleEndian, Utf8.length_encode,
      Nat.add_assoc]
  | body name fits type size small begun short =>
    exact ⟨short, .inl (by rw [List.length_append, length_columnFront])⟩
  | @inside name fits type body behind small passed _ _ broken =>
    obtain ⟨few, whole⟩ := broken.exact
    refine ⟨few, .inr ⟨[], name, type, body, behind, ?_, ?_, ?_⟩⟩
    · rw [List.nil_append, List.append_assoc]
    · rw [List.nil_append, length_columnFront]
      exact Nat.le_add_right _ _
    · rw [List.nil_append, List.length_append, length_columnFront, Nat.add_assoc _ passed, whole]

/-- The numbers of the column that breaks off are true also behind sound columns,
whose bytes count as passed. -/
theorem ColumnsBreak.truthful {count : Nat} {used : List String}
    (broken : ColumnsBreak rows count used bytes passed needed available) :
    Truthful bytes passed needed available := by
  induction broken with
  | here broken => exact broken.truthful
  | behind first fresh later inductionHypothesis => exact inductionHypothesis.behind _

/-- The numbers of a refused payload are true of its bytes, in each of
the three ways to break off. -/
theorem Breaks.truthful {payload : Bytes} {offset : Nat}
    (broken : Breaks payload offset needed available) :
    Truthful payload offset needed available := by
  cases broken with
  | header _ nonempty short => exact ⟨short, .inl (Nat.zero_add _)⟩
  | declared columnCount rowCount allowed rest short =>
    have size := length_encode_header (Header.ofCounts columnCount rowCount) rfl
    exact ⟨short, .inl (by rw [List.length_append, size])⟩
  | columns columnCount rowCount allowed rest enough broken =>
    have size := length_encode_header (Header.ofCounts columnCount rowCount) rfl
    exact size ▸ broken.truthful.behind _

end Truth

/-- A truncation tells where a payload breaks off. A payload is refused as truncated exactly if it
breaks off, at the offset where the field begins that has too few bytes, with the bytes that this
field needs. From there the bytes are counted that there are, all of them inside of the payload: up
to its end, or up to the declared end of the body of a column. Read by index, a payload is refused
or returned in the same way, so that no access falls outside. -/
theorem decode_truncated (payload : Bytes) :
    (∀ offset needed available,
      decode payload = .error (.truncated offset needed available) ↔
        Breaks payload offset needed available) ∧
    (∀ offset needed available, decode payload = .error (.truncated offset needed available) →
      available < needed ∧ offset + available ≤ payload.length ∧
        (offset + available = payload.length ∨ ∃ before name type body behind,
          payload = before ++ columnFront name type body.length ++ body ++ behind ∧
            (before ++ columnFront name type body.length).length ≤ offset ∧
            offset + available = (before ++ columnFront name type body.length ++ body).length)) ∧
    (Indexed.decode payload).run = some (decode payload) := by
  refine ⟨fun offset needed available => decode_eq_truncated_iff, ?_, Indexed.run_decode payload⟩
  intro offset needed available refused
  have truthful := (decode_eq_truncated_iff.mp refused).truthful
  exact ⟨truthful.few, truthful.inside, truthful.upTo⟩

/-- A text that claims 100 bytes in a body that ends two bytes behind its length,
with a second column behind. -/
theorem decode_truncated_body : ∃ payload : Bytes, payload.length = 46 ∧
    decode payload = .error (.truncated 32 100 2) ∧ Breaks payload 32 100 2 ∧
      ∃ before name type body behind,
      payload = before ++ columnFront name type body.length ++ body ++ behind ∧
        (before ++ columnFront name type body.length).length ≤ 32 ∧
        32 + 2 = (before ++ columnFront name type body.length ++ body).length := by
  refine ⟨[84, 67, 66, 49, 1, 0, 0, 0, 2, 0, 0, 0, 1, 0, 0, 0,
    1, 0, 97, 4, 0, 0, 0, 7, 0, 0, 0, 1, 100, 0, 0, 0, 120, 121,
    1, 0, 98, 0, 0, 0, 0, 1, 0, 0, 0, 0], rfl, rfl, ((decode_truncated _).1 32 100 2).mp rfl, ?_⟩
  exact ((decode_truncated _).2.1 32 100 2 rfl).2.2.resolve_left (by decide)

end LedgerIntake.Batch
