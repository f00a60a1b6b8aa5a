import LedgerIntake.Batch.Header
import LedgerIntake.Json.Value

/-!
# Columns

A batch stores its cells by column. Each column has one of six types, and cells without a value are
null whatever the type. Rows are objects: every row of a batch has every column's name as a key.
-/

namespace LedgerIntake.Batch

open Json

/-- The type of the cells of a column. -/
inductive ColumnType where
  /-- No cell has a value. -/
  | null
  /-- One byte, 0 or 1. -/
  | bool
  /-- A signed integer of eight bytes. -/
  | int64
  /-- A finite binary64 of eight bytes. -/
  | float64
  /-- Text in UTF-8 behind its length. -/
  | utf8
  /-- Any value as JSON text behind its length. -/
  | json
deriving DecidableEq

namespace ColumnType

/-- The byte that stands for a type. -/
def tag : ColumnType → UInt8
  | .null => 0
  | .bool => 1
  | .int64 => 2
  | .float64 => 3
  | .utf8 => 4
  | .json => 5

/-- The type that a byte stands for. -/
def ofTag? (tag : UInt8) : Option ColumnType :=
  [ColumnType.null, .bool, .int64, .float64, .utf8, .json].find? fun type => type.tag = tag

/-- The name of a type. -/
def name : ColumnType → String
  | .null => "null"
  | .bool => "bool"
  | .int64 => "int64"
  | .float64 => "float64"
  | .utf8 => "utf8"
  | .json => "json"

/-- The tag of a type is read as that type, so a column is read with
the type it was written with. -/
theorem ofTag_tag (type : ColumnType) : ofTag? type.tag = some type := by
  cases type <;> rfl

end ColumnType

/-- A record as it stands in a batch: the members of an object. -/
abbrev Row := Members

/-- A column with one cell for each row. -/
structure Column where
  name : String
  type : ColumnType
  cells : List Value

/-- What a payload holds: its columns in the order of the payload. -/
structure Table where
  rowCount : Nat
  columns : List Column

namespace Table

/-- The rows: each has every column's cell under the column's name. -/
def rows (table : Table) : List Row :=
  table.columns.foldl
    (fun rows column =>
      List.zipWith (fun row cell => Members.insert row column.name cell) rows column.cells)
    (List.replicate table.rowCount [])

end Table

/-- The kind of a value. -/
def ValueKind.of : Value → ValueKind
  | .null => .null
  | .bool _ => .bool
  | .number _ => .number
  | .text _ => .text
  | .array _ => .array
  | .object _ => .object

/-- The kinds of cells between which a column's type decides. -/
inductive CellKind where
  | bool
  /-- An integer of 64 bits with a sign. -/
  | integer
  | float
  | text
  /-- Nested values, and integers from 2⁶³. -/
  | other
deriving DecidableEq

namespace CellKind

/-- The kind of a cell that is not null. -/
def of? : Value → Option CellKind
  | .null => none
  | .bool _ => some .bool
  | .number (.natural value) => some (if value.toNat < 0x8000000000000000 then .integer else .other)
  | .number (.negative _) => some .integer
  | .number (.float _ _) => some .float
  | .text _ => some .text
  | .array _ => some .other
  | .object _ => some .other

/-- The kind that covers two: integers widen to floats, and no other
mixture has a type of its own. -/
def join (left right : CellKind) : CellKind :=
  match left, right with
  | .bool, .bool => .bool
  | .integer, .integer => .integer
  | .float, .float | .integer, .float | .float, .integer => .float
  | .text, .text => .text
  | _, _ => .other

end CellKind

/-- The greatest magnitude up to which every integer is a binary64. -/
def exactIntegerLimit : Nat := 0x20000000000000

/-- Whether a cell is an integer that a binary64 might not hold. -/
def isLargeInteger : Value → Bool
  | .number value =>
    match value.integer? with
    | some integer => decide (exactIntegerLimit < integer.natAbs)
    | none => false
  | _ => false

/-- The kind of all cells met so far, and whether a large integer is among them. -/
structure Inference where
  kind : Option CellKind
  large : Bool

namespace Inference

/-- Takes in a cell; null changes nothing. -/
def add (inference : Inference) (cell : Value) : Inference :=
  match CellKind.of? cell with
  | none => inference
  | some kind =>
    ⟨some (match inference.kind with
      | none => kind
      | some earlier => earlier.join kind), inference.large || isLargeInteger cell⟩

/-- The narrowest type that holds the cells met. Integers widen to
floats only if none might round. -/
def type (inference : Inference) : ColumnType :=
  match inference.kind with
  | none => .null
  | some .bool => .bool
  | some .integer => .int64
  | some .float => if inference.large then .json else .float64
  | some .text => .utf8
  | some .other => .json

end Inference

/-- The narrowest type that holds every cell of a column. -/
def inferType (cells : List Value) : ColumnType := (cells.foldl Inference.add ⟨none, false⟩).type

end LedgerIntake.Batch
