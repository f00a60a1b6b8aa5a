import LedgerIntake.Proofs.Batch.Cells
import LedgerIntake.Proofs.Outcome
import LedgerIntake.Proofs.Text.Utf8Decoding

/-!
# The grammar of columns

What the bytes of a cell, of a column's body and of a column are is said here without a reader: a
body is a bitmap and then the bytes of the cells whose bits are set, in the order of the rows. The
readers return exactly what the grammar allows. One law for each reader says so in both directions:
it returns a value and stands behind some bytes if and only if the grammar allows these bytes for
the value. Laws of longer readers are put together from those of the readers that they call.
-/

namespace LedgerIntake.Batch

open Json

section Definitions

/-- The bytes of a cell with a value in a column of some type. A column without values has none. -/
inductive CellBytes : ColumnType → Value → Bytes → Prop
  /-- One byte, 0 or 1. -/
  | bool (value : Bool) : CellBytes .bool (.bool value) [if value then 1 else 0]
  /-- Eight bytes, an integer in two's complement. -/
  | int64 (bytes : Bytes) (number : Number) (integer : Int) (width : bytes.length = 8)
      (known : number.integer? = some integer) (range : Signed64 integer)
      (pattern : integer % UInt64.size = Bytes.ofLittleEndian bytes) :
          CellBytes .int64 (.number number) bytes
  /-- Eight bytes, the pattern of a finite number. -/
  | float64 (bytes : Bytes) (value : Binary64) (finite : value.isFinite = true)
    (width : bytes.length = 8)
      (pattern : value.toNat = Bytes.ofLittleEndian bytes) :
          CellBytes .float64 (.number (.float value finite)) bytes
  /-- A text in UTF-8 behind its length. -/
  | utf8 (text : String) (short : (Utf8.encode text).length < sizeLimit) :
      CellBytes .utf8 (.text text)
        (Bytes.littleEndian 4 (Utf8.encode text).length ++ Utf8.encode text)
  /-- Readable JSON text behind its length. -/
  | json (source : Bytes) (value : Value) (short : source.length < sizeLimit)
      (readable : readBytes? source = some value) :
      CellBytes .json value (Bytes.littleEndian 4 source.length ++ source)

/-- The bytes of the cells of a column, given which of them have a value; the others are null. -/
inductive CellsBytes (type : ColumnType) : List Bool → List Value → Bytes → Prop
  | nil : CellsBytes type [] [] []
  | absent {present : List Bool} {cells : List Value} {bytes : Bytes}
    (rest : CellsBytes type present cells bytes) :
      CellsBytes type (false :: present) (.null :: cells) bytes
  | present {present : List Bool} {cell : Value} {cells : List Value} {front bytes : Bytes}
      (first : CellBytes type cell front) (rest : CellsBytes type present cells bytes) :
      CellsBytes type (true :: present) (cell :: cells) (front ++ bytes)

/-- The bit of a row in a bitmap, the lowest bit of each byte first. -/
def presentAt (bitmap : Bytes) (row : Nat) : Bool :=
  (bitmap.getD (row / 8) 0).toNat.testBit (row % 8)

/-- The bytes of a column's body: a bitmap of as few bytes as hold a bit for each row, and the
cells. Bits past the last row are free. -/
inductive BodyBytes (type : ColumnType) (rows : Nat) : List Value → Bytes → Prop
  | mk {cells : List Value} (bitmap values : Bytes) (width : bitmap.length = bitmapLength rows)
      (filled : CellsBytes type ((List.range rows).map (presentAt bitmap)) cells values) :
      BodyBytes type rows cells (bitmap ++ values)

/-- The bytes of a column: its name behind its length, its type, three zero bytes, and
its body behind its length. -/
inductive ColumnBytes (rows : Nat) : Column → Bytes → Prop
  | mk (column : Column) (body : Bytes) (short : column.name.utf8ByteSize < 1 <<< 16)
      (small : body.length < sizeLimit) (filled : BodyBytes column.type rows column.cells body) :
      ColumnBytes rows column
        (Bytes.littleEndian 2 column.name.utf8ByteSize ++ (Utf8.encode column.name
        ++ ([column.type.tag, 0, 0, 0] ++ (Bytes.littleEndian 4 body.length ++ body))))

end Definitions

namespace Cursor

/-- A cursor that passes some bytes stands behind them. -/
structure Passes (cursor : Cursor) (bytes : Bytes) (later : Cursor) : Prop where
  rest : cursor.rest = bytes ++ later.rest
  offset : later.offset = cursor.offset + bytes.length

variable {cursor later : Cursor}

/-- A cursor that passes no bytes stays where it is. -/
theorem passes_nil_iff : cursor.Passes [] later ↔ later = cursor := by
  constructor
  · rintro ⟨rest, offset⟩
    obtain ⟨first, bytes⟩ := cursor
    obtain ⟨last, others⟩ := later
    cases rest
    cases offset
    rfl
  · rintro rfl
    exact ⟨rfl, rfl⟩

/-- A cursor that passes bytes and then others passes both. -/
theorem Passes.append {middle : Cursor} {front behind : Bytes} (first : cursor.Passes front middle)
    (second : middle.Passes behind later) : cursor.Passes (front ++ behind) later where
  rest := by rw [first.rest, second.rest, List.append_assoc]
  offset := by rw [second.offset, first.offset, List.length_append, Nat.add_assoc]

/-- Bytes are passed together exactly if they are passed one part after the other. -/
theorem passes_append_iff (front behind : Bytes) :
    cursor.Passes (front ++ behind) later ↔ ∃ middle, cursor.Passes front middle ∧
      middle.Passes behind later := by
  constructor
  · rintro ⟨rest, offset⟩
    rw [List.append_assoc] at rest
    rw [List.length_append, ← Nat.add_assoc] at offset
    exact ⟨⟨cursor.offset + front.length, behind ++ later.rest⟩, ⟨rest, rfl⟩, rfl, offset⟩
  · rintro ⟨middle, first, second⟩
    exact first.append second

/-- As many bytes are taken as are asked for, and the cursor passes exactly these. -/
theorem take_eq_ok_iff {needed : Nat} {bytes : Bytes} :
    cursor.take needed = .ok (bytes, later) ↔ bytes.length = needed ∧
      cursor.Passes bytes later := by
  obtain ⟨offset, rest⟩ := cursor
  constructor
  · intro taken
    rw [take, List.splitAt_eq] at taken
    dsimp only at taken
    split at taken
    · next full =>
      cases taken
      exact ⟨full, (List.take_append_drop needed rest).symm, by rw [full]⟩
    · cases taken
  · rintro ⟨rfl, whole, moved⟩
    obtain ⟨last, others⟩ := later
    dsimp only at whole moved
    subst whole moved
    exact take_append offset bytes others _ rfl

/-- A number of some bytes is read exactly if its bytes stand there. -/
theorem number_eq_ok_iff {width value : Nat} :
    cursor.number width = .ok (value, later) ↔
      ∃ bytes, bytes.length = width ∧ Bytes.ofLittleEndian bytes = value ∧
        cursor.Passes bytes later := by
  rw [number, bind_eq_ok_iff]
  constructor
  · rintro ⟨⟨bytes, behind⟩, taken, returned⟩
    cases returned
    obtain ⟨length, passes⟩ := take_eq_ok_iff.mp taken
    exact ⟨bytes, length, rfl, passes⟩
  · rintro ⟨bytes, length, rfl, passes⟩
    exact ⟨(bytes, later), take_eq_ok_iff.mpr ⟨length, passes⟩, rfl⟩

/-- The bytes of a number are told by the number, once it fits their width. So what is read of bytes
can be stated without them. -/
theorem exists_bytes_iff {width value : Nat} {property : Bytes → Prop} :
    (∃ bytes : Bytes, bytes.length = width ∧ Bytes.ofLittleEndian bytes = value ∧ property bytes) ↔
      value < 1 <<< (8 * width) ∧ property (Bytes.littleEndian width value) := by
  constructor
  · rintro ⟨bytes, rfl, rfl, holds⟩
    rw [Bytes.littleEndian_ofLittleEndian]
    exact ⟨Bytes.ofLittleEndian_lt bytes, holds⟩
  · rintro ⟨fits, holds⟩
    exact ⟨_, Bytes.length_littleEndian width value,
      Bytes.ofLittleEndian_littleEndian width value fits, holds⟩

/-- Bytes behind their length are read exactly if they stand there, behind the
four bytes of their length. -/
theorem sized_eq_ok_iff {content : Bytes} :
    cursor.sized = .ok (content, later) ↔
      content.length < sizeLimit ∧ cursor.Passes
      (Bytes.littleEndian 4 content.length ++ content) later := by
  rw [sized, bind_eq_ok_iff]
  constructor
  · rintro ⟨⟨length, middle⟩, counted, taken⟩
    obtain ⟨short, front⟩ := exists_bytes_iff.mp (number_eq_ok_iff.mp counted)
    obtain ⟨rfl, behind⟩ := take_eq_ok_iff.mp taken
    exact ⟨short, front.append behind⟩
  · rintro ⟨short, passes⟩
    obtain ⟨middle, front, behind⟩ := (passes_append_iff _ _).mp passes
    exact ⟨(content.length, middle), number_eq_ok_iff.mpr (exists_bytes_iff.mpr ⟨short, front⟩),
      take_eq_ok_iff.mpr ⟨rfl, behind⟩⟩

end Cursor

section Integers

/-- A pattern of 64 bits stands for the integer in range that it is the remainder of. -/
theorem signed_spec {pattern : Nat} (bounded : pattern < UInt64.size) :
    ∃ integer, (signed pattern).integer? = some integer ∧ Signed64 integer ∧
      integer % UInt64.size = pattern := by
  obtain ⟨integer, same⟩ : ∃ integer : Int,
      integer = if pattern < 0x8000000000000000 then (pattern : Int)
        else pattern - UInt64.size := ⟨_, rfl⟩
  simp only [UInt64.size] at *
  have range : Signed64 integer := by
    rw [same]
    constructor <;> split <;> omega
  have formed : ∃ number, Number.ofInt? integer = some number := by
    obtain ⟨least, greatest⟩ := range
    rw [Number.ofInt?]
    by_cases positive : 0 ≤ integer
    · rw [if_pos positive, if_pos (by simp only [UInt64.size]; omega)]
      exact ⟨_, rfl⟩
    · rw [if_neg positive, dif_pos (by omega)]
      exact ⟨_, rfl⟩
  obtain ⟨number, formed⟩ := formed
  refine ⟨integer, ?_, range, ?_⟩
  · rw [signed]
    simp only [UInt64.size]
    rw [← same, formed, Option.getD_some]
    exact Number.integer?_of_ofInt? formed
  · rw [same]
    split <;> omega

/-- Integers in range with one remainder are the same, so the number of a pattern is the
only one that it stands for. -/
theorem signed_eq {number : Number} {integer : Int} {pattern : Nat}
    (known : number.integer? = some integer)
    (range : Signed64 integer) (remainder : integer % UInt64.size = pattern) :
    signed pattern = number := by
  have bounded : pattern < UInt64.size := by
    simp only [UInt64.size] at *
    omega
  obtain ⟨other, found, range', remainder'⟩ := signed_spec bounded
  have same : other = integer := by
    obtain ⟨least, greatest⟩ := range
    obtain ⟨least', greatest'⟩ := range'
    simp only [UInt64.size] at *
    omega
  have formed := Number.ofInt?_integer known
  rw [← same, Number.ofInt?_integer found] at formed
  exact Option.some.inj formed

end Integers

section Cells

variable {column : String} {type : ColumnType} {cursor later : Cursor}

/-- A cell that is returned was passed: its bytes stand there, in the form of its type. There is one
case for each type, and in it each test of the reader gives a condition of the form. -/
theorem cellBytes_of_readCell {cell : Value}
    (read : readCell column type cursor = .ok (cell, later)) :
    ∃ bytes, CellBytes type cell bytes ∧ cursor.Passes bytes later := by
  cases type with
  | null => cases read
  | bool =>
    obtain ⟨⟨code, behind⟩, read, returned⟩ := bind_eq_ok_iff.mp read
    obtain ⟨-, passes⟩ := Cursor.exists_bytes_iff.mp (Cursor.number_eq_ok_iff.mp read)
    dsimp only at returned
    split at returned
    · next zero =>
      cases returned
      rw [zero] at passes
      exact ⟨_, .bool false, passes⟩
    · split at returned
      · next one =>
        cases returned
        rw [one] at passes
        exact ⟨_, .bool true, passes⟩
      · cases returned
  | int64 =>
    obtain ⟨⟨pattern, behind⟩, read, returned⟩ := bind_eq_ok_iff.mp read
    cases returned
    obtain ⟨bytes, width, rfl, passes⟩ := Cursor.number_eq_ok_iff.mp read
    have bounded := Bytes.ofLittleEndian_lt bytes
    rw [width] at bounded
    obtain ⟨integer, known, range, pattern⟩ := signed_spec bounded
    exact ⟨bytes, .int64 bytes _ integer width known range pattern, passes⟩
  | float64 =>
    obtain ⟨⟨pattern, behind⟩, read, returned⟩ := bind_eq_ok_iff.mp read
    obtain ⟨bytes, width, rfl, passes⟩ := Cursor.number_eq_ok_iff.mp read
    have bounded := Bytes.ofLittleEndian_lt bytes
    rw [width] at bounded
    dsimp only at returned
    split at returned
    · next number formed =>
      cases returned
      unfold Number.ofBinary64? at formed
      split at formed
      · next finite =>
        cases formed
        exact ⟨bytes, .float64 bytes _ finite width (UInt64.toNat_ofNat_of_lt' bounded), passes⟩
      · cases formed
    · cases returned
  | utf8 =>
    obtain ⟨⟨content, behind⟩, read, returned⟩ := bind_eq_ok_iff.mp read
    obtain ⟨short, passes⟩ := Cursor.sized_eq_ok_iff.mp read
    dsimp only at returned
    split at returned
    · next text decoded =>
      cases returned
      rw [Utf8.decode?_eq_some_iff] at decoded
      subst decoded
      exact ⟨_, .utf8 text short, passes⟩
    · cases returned
  | json =>
    obtain ⟨⟨content, behind⟩, read, returned⟩ := bind_eq_ok_iff.mp read
    obtain ⟨short, passes⟩ := Cursor.sized_eq_ok_iff.mp read
    dsimp only at returned
    split at returned
    · next value readable =>
      cases returned
      exact ⟨_, .json content _ short readable, passes⟩
    · cases returned

/-- A cell whose bytes stand there is returned, by one case for each form. -/
theorem readCell_of_cellBytes {cell : Value} {bytes : Bytes} (allowed : CellBytes type cell bytes)
    (passes : cursor.Passes bytes later) : readCell column type cursor = .ok (cell, later) := by
  cases allowed with
  | bool value =>
    have code : Bytes.ofLittleEndian [if value then 1 else 0]
      = value.toNat := by cases value <;> rfl
    refine bind_eq_ok_iff.mpr ⟨_, Cursor.number_eq_ok_iff.mpr ⟨_, rfl, code, passes⟩, ?_⟩
    cases value <;> rfl
  | int64 bytes number integer width known range pattern =>
    refine bind_eq_ok_iff.mpr ⟨_, Cursor.number_eq_ok_iff.mpr ⟨bytes, width, rfl, passes⟩, ?_⟩
    dsimp only
    rw [signed_eq known range pattern]
    rfl
  | float64 bytes value finite width pattern =>
    refine bind_eq_ok_iff.mpr
      ⟨_, Cursor.number_eq_ok_iff.mpr ⟨bytes, width, pattern.symm, passes⟩, ?_⟩
    dsimp only
    rw [ofBits_toNat, ofBinary64?_of_isFinite value finite]
    rfl
  | utf8 text short =>
    refine bind_eq_ok_iff.mpr ⟨_, Cursor.sized_eq_ok_iff.mpr ⟨short, passes⟩, ?_⟩
    dsimp only
    rw [Utf8.decode?_encode]
    rfl
  | json source value short readable =>
    refine bind_eq_ok_iff.mpr ⟨_, Cursor.sized_eq_ok_iff.mpr ⟨short, passes⟩, ?_⟩
    dsimp only
    rw [readable]
    rfl

/-- A cell is returned exactly if the bytes of a cell of the column's type stand there. -/
theorem readCell_eq_ok_iff {cell : Value} : readCell column type cursor = .ok (cell, later) ↔
    ∃ bytes, CellBytes type cell bytes ∧ cursor.Passes bytes later := by
  constructor
  · exact cellBytes_of_readCell
  · rintro ⟨bytes, allowed, passes⟩
    exact readCell_of_cellBytes allowed passes

/-- A cell with a value is read in front of the others, and put in front of those that were read. -/
theorem readCells_true (cursor : Cursor) (read : List Value) (present : List Bool) :
    readCells column type cursor read (true :: present)
      = readCell column type cursor >>= fun (value, later) =>
      readCells column type later (value :: read) present := by
  rw [readCells]
  cases readCell column type cursor <;> rfl

/-- Cells are returned exactly if the bytes of the cells with a value stand there. The induction is
on the presence bits, in the order of the rows. -/
theorem readCells_eq_ok_iff {present : List Bool} {read all : List Value} :
    readCells column type cursor read present = .ok (all, later) ↔
      ∃ cells bytes, all = read.reverse ++ cells ∧ CellsBytes type present cells bytes ∧
        cursor.Passes bytes later := by
  induction present generalizing cursor read with
  | nil =>
    constructor
    · intro returned
      cases returned
      exact ⟨[], [], (List.append_nil _).symm, .nil, Cursor.passes_nil_iff.mpr rfl⟩
    · rintro ⟨_, _, rfl, ⟨⟩, passes⟩
      rw [Cursor.passes_nil_iff.mp passes, List.append_nil]
      rfl
  | cons bit present inductionHypothesis =>
    cases bit with
    | false =>
      rw [readCells, inductionHypothesis]
      constructor
      · rintro ⟨cells, bytes, rfl, filled, passes⟩
        exact ⟨.null :: cells, bytes, by simp, .absent filled, passes⟩
      · rintro ⟨_, bytes, rfl, filled, passes⟩
        cases filled with
        | absent rest => exact ⟨_, bytes, by simp, rest, passes⟩
    | true =>
      rw [readCells]
      constructor
      · intro returned
        split at returned
        · cases returned
        · next cell middle first =>
          obtain ⟨front, allowed, before⟩ := readCell_eq_ok_iff.mp first
          obtain ⟨cells, bytes, rfl, filled, behind⟩ := inductionHypothesis.mp returned
          exact ⟨cell :: cells, front ++ bytes, by simp, .present allowed filled,
            before.append behind⟩
      · rintro ⟨_, _, rfl, filled, passes⟩
        cases filled with
        | present allowed rest =>
          obtain ⟨middle, before, behind⟩ := (Cursor.passes_append_iff _ _).mp passes
          rw [readCell_eq_ok_iff.mpr ⟨_, allowed, before⟩]
          exact inductionHypothesis.mpr ⟨_, _, by simp, rest, behind⟩

/-- A column has a cell for every bit that tells whether one is present. -/
theorem CellsBytes.length_eq {present : List Bool} {cells : List Value} {bytes : Bytes}
    (filled : CellsBytes type present cells bytes) : cells.length = present.length := by
  induction filled with
  | nil => rfl
  | absent rest inductionHypothesis => exact congrArg Nat.succ inductionHypothesis
  | present first rest inductionHypothesis => exact congrArg Nat.succ inductionHypothesis

end Cells

section Bodies

/-- The bits of a bitmap are those of its bytes, eight each, the lowest first. -/
theorem getElem?_flatMap_unpackBits (bitmap : Bytes) (row : Nat)
    (inside : row < 8 * bitmap.length) :
    (bitmap.flatMap unpackBits)[row]? = some (presentAt bitmap row) := by
  induction bitmap generalizing row with
  | nil => simp at inside
  | cons byte rest inductionHypothesis =>
    have eight : (unpackBits byte).length = 8 := by
      rw [unpackBits, List.length_map, List.length_range]
    rw [List.flatMap_cons]
    by_cases first : row < 8
    · have bit : (unpackBits byte)[row]? = some (byte.toNat.testBit row) := by
        rw [unpackBits, List.getElem?_map, List.getElem?_range first, Option.map_some]
      rw [List.getElem?_append_left (by omega), bit, presentAt, Nat.div_eq_of_lt first,
        Nat.mod_eq_of_lt first]
      rfl
    · obtain ⟨later, rfl⟩ := Nat.exists_eq_add_of_le' (Nat.le_of_not_lt first)
      rw [List.length_cons] at inside
      rw [List.getElem?_append_right (by omega), eight, Nat.add_sub_cancel,
        inductionHypothesis later (by omega), presentAt, presentAt, Nat.add_div_right _ (by decide),
        Nat.add_mod_right]
      rfl

/-- The presence bits that are read are the bits of the rows; those behind the
last row are not looked at. -/
theorem presence_eq {bitmap : Bytes} {rows : Nat} (width : bitmap.length = bitmapLength rows) :
    presence bitmap rows = (List.range rows).map (presentAt bitmap) := by
  show (bitmap.flatMap unpackBits).take rows = _
  rw [bitmapLength] at width
  apply List.ext_getElem?
  intro row
  by_cases inside : row < rows
  · rw [List.getElem?_take_of_lt inside, getElem?_flatMap_unpackBits _ _ (by omega),
      List.getElem?_map, List.getElem?_range inside, Option.map_some]
  · rw [List.getElem?_eq_none (by simp; omega), List.getElem?_eq_none (by simp; omega)]

variable {column : String} {type : ColumnType}

/-- The cells of a body are returned exactly if the body is one of these cells,
with nothing behind the last. -/
theorem readBody_eq_ok_iff {rows offset : Nat} {body : Bytes} {cells : List Value} :
    readBody column type rows ⟨offset, body⟩ = .ok cells ↔ BodyBytes type rows cells body := by
  rw [readBody, bind_eq_ok_iff]
  constructor
  · rintro ⟨⟨bitmap, middle⟩, taken, returned⟩
    obtain ⟨width, front⟩ := Cursor.take_eq_ok_iff.mp taken
    obtain ⟨⟨found, later⟩, read, returned⟩ := bind_eq_ok_iff.mp returned
    rw [presence_eq width] at read
    obtain ⟨_, values, rfl, filled, behind⟩ := readCells_eq_ok_iff.mp read
    dsimp only at returned
    split at returned
    · next empty =>
      cases returned
      have whole := front.rest
      rw [behind.rest, List.isEmpty_iff.mp empty, List.append_nil] at whole
      dsimp only at whole
      rw [whole]
      exact .mk bitmap values width filled
    · cases returned
  · rintro ⟨bitmap, values, width, filled⟩
    refine ⟨(bitmap, ⟨offset + bitmap.length, values⟩),
      Cursor.take_eq_ok_iff.mpr ⟨width, rfl, rfl⟩, ?_⟩
    refine bind_eq_ok_iff.mpr ⟨(cells, ⟨offset + bitmap.length + values.length, []⟩), ?_, rfl⟩
    rw [presence_eq width]
    exact readCells_eq_ok_iff.mpr ⟨cells, values, rfl, filled, (List.append_nil values).symm, rfl⟩

/-- A body has a cell for each row, and at least the bytes of its bitmap. -/
theorem BodyBytes.length {rows : Nat} {cells : List Value} {body : Bytes}
    (written : BodyBytes type rows cells body) :
    cells.length = rows ∧ bitmapLength rows ≤ body.length := by
  obtain ⟨bitmap, values, width, filled⟩ := written
  constructor
  · rw [filled.length_eq, List.length_map, List.length_range]
  · rw [List.length_append, width]
    exact Nat.le_add_right _ _

end Bodies

end LedgerIntake.Batch
