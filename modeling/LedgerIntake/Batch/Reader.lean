import LedgerIntake.Batch.Column
import LedgerIntake.Json.Reader

/-!
# Reading batches

Every read goes through `Cursor.take`, which compares the length asked for with the bytes that are
left before it hands out any of them. A column's body is read through a cursor of its own that ends
where the body ends and still counts offsets from the front of the payload.
-/

namespace LedgerIntake.Batch

open Json

/-- Unread bytes, and the offset of the first of them. -/
structure Cursor where
  offset : Nat
  rest : Bytes

namespace Cursor

/-- The next bytes, and the cursor behind them. -/
def take (cursor : Cursor) (needed : Nat) : Except BatchError (Bytes × Cursor) :=
  let (taken, rest) := cursor.rest.splitAt needed
  if taken.length = needed then .ok (taken, ⟨cursor.offset + needed, rest⟩)
  else .error (.truncated cursor.offset needed taken.length)

/-- A little-endian number of some bytes. -/
def number (cursor : Cursor) (width : Nat) : Except BatchError (Nat × Cursor) := do
  let (bytes, cursor) ← cursor.take width
  return (Bytes.ofLittleEndian bytes, cursor)

/-- Bytes behind their length of four bytes. -/
def sized (cursor : Cursor) : Except BatchError (Bytes × Cursor) := do
  let (length, cursor) ← cursor.number 4
  cursor.take length

end Cursor

/-- A refusal of a column. -/
def refuse {α : Type} (column : String) (fault : ColumnFault) : Except BatchError α :=
  .error (.column column fault)

/-- The integer of an eight-byte pattern in two's complement. -/
def signed (pattern : Nat) : Number :=
  let integer : Int := if pattern < 0x8000000000000000 then pattern else pattern - UInt64.size
  (Number.ofInt? integer).getD (.ofNat pattern)

/-- Reads the value of a present cell. -/
def readCell (column : String) (type : ColumnType) (cursor : Cursor) :
    Except BatchError (Value × Cursor) :=
  match type with
  | .null => refuse column .presentNull
  | .bool => do
    let (code, cursor) ← cursor.number 1
    if code = 0 then return (.bool false, cursor)
    else if code = 1 then return (.bool true, cursor)
    else refuse column (.boolByte (UInt8.ofNat code))
  | .int64 => do
    let (pattern, cursor) ← cursor.number 8
    return (.number (signed pattern), cursor)
  | .float64 => do
    let (pattern, cursor) ← cursor.number 8
    let value := Binary64.ofBits pattern
    match Number.ofBinary64? value with
    | some number => return (.number number, cursor)
    | none => refuse column (.notFinite value)
  | .utf8 => do
    let (bytes, cursor) ← cursor.sized
    match Utf8.decode? bytes with
    | some text => return (.text text, cursor)
    | none => refuse column .textNotUtf8
  | .json => do
    let (bytes, cursor) ← cursor.sized
    match readBytes? bytes with
    | some value => return (value, cursor)
    | none => refuse column (.unreadableJson bytes)

/-- The presence bits of some rows, the lowest bit of each byte first. Bits past the
last row count for nothing. -/
def presence (bitmap : Bytes) (rows : Nat) : List Bool :=
  (bitmap.flatMap fun byte => (List.range 8).map byte.toNat.testBit).take rows

/-- Reads one cell for each presence bit; cells read so far stand in reverse. -/
def readCells (column : String) (type : ColumnType) (cursor : Cursor) (read : List Value) :
    List Bool → Except BatchError (List Value × Cursor)
  | [] => .ok (read.reverse, cursor)
  | false :: present => readCells column type cursor (.null :: read) present
  | true :: present =>
    match readCell column type cursor with
    | .error refusal => .error refusal
    | .ok (value, cursor) => readCells column type cursor (value :: read) present

/-- Reads the cells of a column's body, which they have to fill. -/
def readBody (column : String) (type : ColumnType) (rows : Nat) (body : Cursor) :
    Except BatchError (List Value) := do
  let (bitmap, cursor) ← body.take (bitmapLength rows)
  let (cells, cursor) ← readCells column type cursor [] (presence bitmap rows)
  if cursor.rest.isEmpty then return cells
  else refuse column (.unusedBytes cursor.rest.length)

/-- Reads a column: name, type, reserved bytes, and a body of declared length. -/
def readColumn (rows : Nat) (cursor : Cursor) : Except BatchError (Column × Cursor) := do
  let (nameLength, cursor) ← cursor.number 2
  let (nameBytes, cursor) ← cursor.take nameLength
  match Utf8.decode? nameBytes with
  | none => refuse (Utf8.decodeLossy nameBytes) .nameNotUtf8
  | some name =>
    let trailerOffset := cursor.offset
    let (trailer, cursor) ← cursor.take 8
    if (trailer.drop 1).take 3 ≠ [0, 0, 0] then refuse name (.reservedBytes (trailerOffset + 1))
    else
      let tag := trailer.headD 0
      match ColumnType.ofTag? tag with
      | none => .error (.columnType name tag)
      | some type =>
        let bodyOffset := cursor.offset
        let (body, cursor) ← cursor.take (Bytes.ofLittleEndian (trailer.drop 4))
        let cells ← readBody name type rows ⟨bodyOffset, body⟩
        return (⟨name, type, cells⟩, cursor)

/-- Reads a number of columns with different names; columns read so far stand in reverse. -/
def readColumns (rows : Nat) : (count : Nat) → List Column → Cursor →
    Except BatchError (List Column × Cursor)
  | 0, read, cursor => .ok (read.reverse, cursor)
  | count + 1, read, cursor =>
    match readColumn rows cursor with
    | .error refusal => .error refusal
    | .ok (column, cursor) =>
      if read.any fun earlier => earlier.name = column.name then
        .error (.duplicateColumn column.name)
      else readColumns rows count (column :: read) cursor

/-- Reads the header at the front of a payload for a reader that stands at some position, and tells
where the reader stands then. The position moves as soon as the header is read, also if the payload
is too short for the columns that it declares. -/
def readHeader (payload : Bytes) (position : Nat) : Except BatchError Header × Nat :=
  match Header.decode payload with
  | .error refusal => (.error refusal, position)
  | .ok header =>
    let available := payload.length - headerSize
    if available < header.leastRest then
      (.error (.truncated headerSize header.leastRest available), headerSize)
    else (.ok header, headerSize)

/-- Reads a batch, which has to end with its last column. -/
def decode (payload : Bytes) : Except BatchError Table := do
  let header ← (readHeader payload 0).1
  let rows := header.rowCount.toNat
  let (columns, cursor) ←
    readColumns rows header.columnCount.toNat [] ⟨headerSize, payload.drop headerSize⟩
  if cursor.rest.isEmpty then return ⟨rows, columns⟩
  else .error (.trailingBytes cursor.offset cursor.rest.length)

end LedgerIntake.Batch
