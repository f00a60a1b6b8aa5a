import LedgerIntake.Batch.Error

/-!
# The header of a batch

Sixteen bytes: the mark of the format, its version, reserved flags, and how many columns and rows
follow, all little-endian. A header that decodes is one that encoding would produce.
-/

namespace LedgerIntake.Batch

/-- The version of the format. -/
def version : UInt16 := 1

/-- Bytes of a header. -/
def headerSize : Nat := 16

/-- Rows that one batch may carry. -/
def rowLimit : Nat := 0x100000

/-- Bytes of a column beside its name and its body: the length of the name, the type tag, three
reserved bytes and the length of the body. -/
def columnOverhead : Nat := 10

/-- The counts at the front of a batch, with the fixed fields as they stand. -/
structure Header where
  magic : Bytes
  version : UInt16
  flags : UInt16
  columnCount : UInt32
  rowCount : UInt32
deriving DecidableEq

/-- Bytes that hold one bit for each row. -/
def bitmapLength (rows : Nat) : Nat := (rows + 7) / 8

namespace Header

/-- The header of a batch of this shape. -/
def ofCounts (columnCount rowCount : UInt32) : Header where
  magic := Batch.magic
  version := Batch.version
  flags := 0
  columnCount := columnCount
  rowCount := rowCount

/-- Bytes of each column's presence bits. -/
def bitmapLength (header : Header) : Nat := Batch.bitmapLength header.rowCount.toNat

/-- The sixteen bytes. -/
def encode (header : Header) : Bytes :=
  header.magic ++ Bytes.littleEndian 2 header.version.toNat
    ++ Bytes.littleEndian 2 header.flags.toNat
    ++ Bytes.littleEndian 4 header.columnCount.toNat
    ++ Bytes.littleEndian 4 header.rowCount.toNat

/-- The number in a field of a byte string. -/
def fieldAt (bytes : Bytes) (offset width : Nat) : Nat :=
  Bytes.ofLittleEndian ((bytes.drop offset).take width)

/-- Reads the header at the front of a payload. The mark is examined first,
then version, flags and counts. -/
def decode (bytes : Bytes) : Except BatchError Header :=
  let front := bytes.take headerSize
  if front.isEmpty then .error .empty
  else if front.length < headerSize then .error (.truncated 0 headerSize front.length)
  else
    let found := front.take 4
    let foundVersion := UInt16.ofNat (fieldAt front 4 2)
    let flags := UInt16.ofNat (fieldAt front 6 2)
    let columnCount := UInt32.ofNat (fieldAt front 8 4)
    let rowCount := UInt32.ofNat (fieldAt front 12 4)
    if found ≠ Batch.magic then .error (.header (.magic found))
    else if foundVersion ≠ Batch.version then .error (.version foundVersion)
    else if flags ≠ 0 then .error (.header (.flags flags))
    else if rowLimit < rowCount.toNat then .error (.tooManyRows rowCount.toNat rowLimit)
    else if columnCount = 0 ∧ rowCount ≠ 0 then
      .error (.header (.rowsWithoutColumns rowCount.toNat))
    else .ok ⟨found, foundVersion, flags, columnCount, rowCount⟩

/-- The fewest bytes that the declared columns take. -/
def leastRest (header : Header) : Nat :=
  header.columnCount.toNat * (columnOverhead + header.bitmapLength)

end Header

end LedgerIntake.Batch
