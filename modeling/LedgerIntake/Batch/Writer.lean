import LedgerIntake.Batch.Column
import LedgerIntake.Json.Writer

/-!
# Writing batches

A writer gathers rows and remembers every key in the order in which it was first seen. Finishing
writes one column for each key: its type is the narrowest that holds its cells, and a row without
the key has null there.
-/

namespace LedgerIntake.Batch

open Json

/-- Rows gathered for a batch, and the names of its columns in first-seen order. -/
structure Writer where
  columns : List String
  rows : Array Row

namespace Writer

/-- A writer without rows. -/
def empty : Writer := ⟨[], #[]⟩

/-- The number of rows. -/
def size (writer : Writer) : Nat := writer.rows.size

/-- The greatest length of a column's name in bytes. -/
def nameLimit : Nat := 65535

/-- Adds the keys that are not columns yet, up to the first that is too long for a column. -/
def register (columns : List String) : List String → List String × Option EncodeFault
  | [] => (columns, none)
  | key :: rest =>
    if key ∈ columns then register columns rest
    else if nameLimit < key.utf8ByteSize then (columns, some (.nameTooLong key.utf8ByteSize))
    else register (columns ++ [key]) rest

/-- Adds a row. Of a row that is refused for the length of a key, the keys before
that one are kept as columns. -/
def push (writer : Writer) (row : Row) : Writer × Except BatchError Unit :=
  if rowLimit ≤ writer.rows.size then
    (writer, .error (.tooManyRows (rowLimit + 1) rowLimit))
  else
    let ⟨columns, rows⟩ := writer
    match register columns (Members.keys row) with
    | (columns, none) => (⟨columns, rows.push row⟩, .ok ())
    | (columns, some fault) => (⟨columns, rows⟩, .error (.encode fault))

/-- Adds a value, which has to be an object. -/
def pushValue (writer : Writer) (value : Value) : Writer × Except BatchError Unit :=
  match value with
  | .object row => writer.push row
  | other => (writer, .error (.encode (.notObject (.of other))))

end Writer

/-- The bits of a byte, the lowest first. -/
def packBits (bits : List Bool) : UInt8 :=
  UInt8.ofNat (bits.foldr (fun bit higher => bit.toNat + 2 * higher) 0)

/-- One bit for each row in as few bytes as hold them; bytes written so far stand in reverse. -/
def packBitmap (written : Bytes) (bits : List Bool) : Bytes :=
  if bits.isEmpty then written.reverse
  else packBitmap (packBits (bits.take 8) :: written) (bits.drop 8)
termination_by bits.length
decreasing_by
  next present =>
    have nonempty : 0 < bits.length := by
      cases bits <;> simp_all
    simp only [List.length_drop]
    omega

/-- Lengths of cells and bodies are below this. -/
def sizeLimit : Nat := UInt32.size

/-- Bytes behind their length. -/
def writeSized (column : String) (bytes : Bytes) : Except EncodeFault Bytes :=
  let length := bytes.length
  if length < sizeLimit then .ok (Bytes.littleEndian 4 length ++ bytes)
  else .error (.cellTooLong column)

/-- A number as an integer of 64 bits in two's complement. -/
def int64Pattern? (value : Number) : Option Nat :=
  match value.integer? with
  | some integer =>
    if -0x8000000000000000 ≤ integer ∧ integer < 0x8000000000000000 then
      some (if integer < 0 then (integer + UInt64.size).toNat else integer.toNat)
    else none
  | none => none

/-- A number as the pattern of a binary64. -/
def float64Pattern (value : Number) : Nat :=
  match value with
  | .natural value => (Binary64.ofNat value.toNat).toNat
  | .negative below => (Binary64.ofInt (-(below.val : Int) - 1)).toNat
  | .float value _ => value.toNat

/-- The bytes of a cell; none for null. -/
def writeCell (column : String) (type : ColumnType) (cell : Value) : Except EncodeFault Bytes :=
  if cell.isNull then .ok []
  else
    match type, cell with
    | .null, _ => .ok []
    | .bool, .bool true => .ok [1]
    | .bool, _ => .ok [0]
    | .int64, .number value =>
      match int64Pattern? value with
      | some pattern => .ok (Bytes.littleEndian 8 pattern)
      | none => .error (.mistyped column .number)
    | .float64, .number value => .ok (Bytes.littleEndian 8 (float64Pattern value))
    | .utf8, .text value => writeSized column (Utf8.encode value)
    | .json, cell => writeSized column (Utf8.encode cell.toText)
    | _, cell => .error (.mistyped column (.of cell))

/-- The body of a column: its presence bits and the cells that are not null. -/
def writeBody (column : String) (type : ColumnType) (cells : List Value) :
    Except EncodeFault Bytes := do
  let values ← cells.mapM (writeCell column type)
  return packBitmap [] (cells.map fun cell => !cell.isNull) ++ values.flatten

/-- A column: the length of its name, its name, its type, three reserved bytes, the
length of its body and its body. -/
def writeColumn (name : String) (cells : List Value) : Except EncodeFault Bytes := do
  let type := inferType cells
  let body ← writeBody name type cells
  let length := body.length
  if length < sizeLimit then
    return Bytes.littleEndian 2 name.utf8ByteSize ++ Utf8.encode name ++ [type.tag, 0, 0, 0]
      ++ Bytes.littleEndian 4 length ++ body
  else .error (.bodyTooLong name)

/-- The cells of a column: null where a row lacks the key. -/
def cellsOf (rows : List Row) (name : String) : List Value :=
  rows.map fun row => (Members.get? row name).getD .null

namespace Writer

/-- The batch of the gathered rows. -/
def finish (writer : Writer) : Except BatchError Bytes :=
  let rows := writer.rows.toList
  match writer.columns.mapM fun name => writeColumn name (cellsOf rows name) with
  | .error fault => .error (.encode fault)
  | .ok columns =>
    let header :=
      Header.ofCounts (UInt32.ofNat writer.columns.length) (UInt32.ofNat writer.rows.size)
    .ok (header.encode ++ columns.flatten)

end Writer

/-- Adds rows in turn until one is refused. -/
def pushAll (writer : Writer) : List Row → Except BatchError Writer
  | [] => .ok writer
  | row :: rest =>
    match writer.push row with
    | (writer, .ok ()) => pushAll writer rest
    | (_, .error refusal) => .error refusal

/-- The batch of some rows. -/
def encode (rows : List Row) : Except BatchError Bytes := do
  let writer ← pushAll .empty rows
  writer.finish

end LedgerIntake.Batch
