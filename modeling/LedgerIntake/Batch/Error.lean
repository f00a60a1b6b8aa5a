import LedgerIntake.Diagnostics
import LedgerIntake.Text.Utf8
import LedgerIntake.Number.Layout

/-!
# Causes of refusal

A payload is refused for one cause, and each cause carries what its message needs. Offsets are
absolute: they count from the first byte of the payload, also inside the body of a column.
-/

namespace LedgerIntake.Batch

/-- What is wrong with a header of full length and known version. -/
inductive HeaderFault where
  /-- The payload does not begin with the mark of the format. -/
  | magic (found : Bytes)
  /-- A reserved flag is set. -/
  | flags (value : UInt16)
  /-- Rows are declared without a column to hold them. -/
  | rowsWithoutColumns (rows : Nat)
deriving DecidableEq

/-- What is wrong with a column whose name could be read. -/
inductive ColumnFault where
  | nameNotUtf8
  | reservedBytes (offset : Nat)
  | presentNull
  | boolByte (byte : UInt8)
  | notFinite (value : Binary64)
  | textNotUtf8
  /-- A cell that is no JSON text, with its bytes. -/
  | unreadableJson (cell : Bytes)
  | unusedBytes (count : Nat)
deriving DecidableEq

/-- The kinds of JSON values that no row can be. -/
inductive ValueKind where
  | null
  | bool
  | number
  | text
  | array
  | object
deriving DecidableEq

/-- Why rows have no batch. -/
inductive EncodeFault where
  /-- A column's name is longer than its length field can tell. -/
  | nameTooLong (length : Nat)
  /-- A value offered as a row is no object. -/
  | notObject (kind : ValueKind)
  /-- A cell does not have its column's type. -/
  | mistyped (column : String) (kind : ValueKind)
  | cellTooLong (column : String)
  | bodyTooLong (column : String)
deriving DecidableEq

/-- Why a payload is no batch, or rows are none. -/
inductive BatchError where
  | empty
  | header (fault : HeaderFault)
  | version (found : UInt16)
  /-- A read of `needed` bytes at `offset` met the end after `available`. -/
  | truncated (offset needed available : Nat)
  | column (name : String) (fault : ColumnFault)
  | columnType (name : String) (tag : UInt8)
  | duplicateColumn (name : String)
  | trailingBytes (offset remaining : Nat)
  | tooManyRows (rows limit : Nat)
  | encode (fault : EncodeFault)
deriving DecidableEq

/-- Bytes as decimal numbers in brackets. -/
def listBytes (bytes : Bytes) : String :=
  "[" ++ String.intercalate ", " (bytes.map fun byte => byte.toNat.repr) ++ "]"

/-- A number of bytes in hexadecimal digits. -/
def hexadecimal (width value : Nat) : String := "0x" ++ Bytes.toHex (Bytes.bigEndian width value)

/-- The first four bytes of every batch. -/
def magic : Bytes := [84, 67, 66, 49]

/-- The wording of a fault. -/
def HeaderFault.message : HeaderFault → String
  | .magic found => "invalid magic: " ++ listBytes found ++ ", expected " ++ listBytes Batch.magic
  | .flags value => "non-zero flags: " ++ hexadecimal 2 value.toNat
  | .rowsWithoutColumns rows => rows.repr ++ " rows declared without any columns"

/-- The wording of a fault. -/
def ColumnFault.message [Diagnostics] : ColumnFault → String
  | .nameNotUtf8 => "column name is not valid UTF-8"
  | .reservedBytes offset => "non-zero reserved bytes at offset " ++ offset.repr
  | .presentNull => "null column marks a cell as present"
  | .boolByte byte => "invalid bool byte " ++ hexadecimal 1 byte.toNat
  | .notFinite value => "non-finite float " ++ Layout.measurement.write value
  | .textNotUtf8 => "string cell is not valid UTF-8"
  | .unreadableJson cell => "json cell does not parse: " ++ Diagnostics.ofJson cell
  | .unusedBytes count => count.repr ++ " unused bytes at end of column body"

/-- The name of a kind. -/
def ValueKind.name : ValueKind → String
  | .null => "null"
  | .bool => "bool"
  | .number => "number"
  | .text => "string"
  | .array => "array"
  | .object => "object"

/-- The wording of a fault. -/
def EncodeFault.message : EncodeFault → String
  | .nameTooLong length => "column name of " ++ length.repr ++ " bytes exceeds 65535"
  | .notObject kind => "row must be a JSON object, got " ++ kind.name
  | .mistyped column kind => "column '" ++ column ++ "' cannot hold " ++ kind.name ++ " value"
  | .cellTooLong column => "cell in column '" ++ column ++ "' exceeds 4 GiB"
  | .bodyTooLong column => "column '" ++ column ++ "' body exceeds 4 GiB"

/-- The wording of a refusal. -/
def BatchError.message [Diagnostics] : BatchError → String
  | .empty => "empty batch payload"
  | .header fault => "invalid batch header: " ++ fault.message
  | .version found => "unsupported batch version: " ++ hexadecimal 2 found.toNat
  | .truncated offset needed available =>
    "truncated batch at offset " ++ offset.repr ++ ": need " ++ needed.repr ++ " bytes, "
      ++ available.repr ++ " available"
  | .column name fault => "invalid column '" ++ name ++ "': " ++ fault.message
  | .columnType name tag =>
    "column '" ++ name ++ "' has unsupported type tag " ++ hexadecimal 1 tag.toNat
  | .duplicateColumn name => "duplicate column '" ++ name ++ "'"
  | .trailingBytes offset remaining =>
    remaining.repr ++ " trailing bytes after last column at offset " ++ offset.repr
  | .tooManyRows rows limit =>
    "batch declares " ++ rows.repr ++ " rows (max: " ++ limit.repr ++ ")"
  | .encode fault => "cannot encode batch: " ++ fault.message

end LedgerIntake.Batch
