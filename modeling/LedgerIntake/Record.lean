import LedgerIntake.Batch.Column
import LedgerIntake.Json.Writer

/-!
# Transaction records

A record is a row that names its entity, its event and its time. Any value but null will do for
event and time; the entity is a text that is not empty. A record keeps its row as it is, and it
cannot be built from a row that fails the check.
-/

namespace LedgerIntake

open Json Batch

/-- The fields that every record carries. -/
inductive RequiredField where
  | entityId
  | eventType
  | timestamp
deriving DecidableEq

/-- The key of a field. -/
def RequiredField.name : RequiredField → String
  | .entityId => "entity_id"
  | .eventType => "event_type"
  | .timestamp => "timestamp"

/-- Why a value is no record. -/
inductive RecordFault where
  | notObject
  | missing (field : RequiredField)
  | null (field : RequiredField)
  /-- The entity is no text, or an empty one. -/
  | entity
deriving DecidableEq

namespace RecordFault

/-- What an entity has to be. -/
def entityExpectation : String := "must be a non-empty string"

/-- The wording of a fault. -/
def message : RecordFault → String
  | .notObject => "record is not an object"
  | .missing field => "missing required field '" ++ field.name ++ "'"
  | .null field => "required field '" ++ field.name ++ "' is null"
  | .entity => "field '" ++ RequiredField.entityId.name ++ "' " ++ entityExpectation

/-- The field that a fault concerns. -/
def field? : RecordFault → Option RequiredField
  | .notObject => none
  | .missing field => some field
  | .null field => some field
  | .entity => some .entityId

/-- The fault as an object. -/
def toText : RecordFault → String
  | .notObject => object [("reason", quoted "not_an_object")]
  | .missing field => object [("reason", quoted "missing_field"), ("field", quoted field.name)]
  | .null field => object [("reason", quoted "null_field"), ("field", quoted field.name)]
  | .entity =>
    object [("reason", quoted "invalid_field"), ("field", quoted RequiredField.entityId.name),
      ("expected", quoted entityExpectation)]

end RecordFault

namespace Record

/-- The other key under which an event may stand. -/
def eventAlias : String := "event"

/-- The value of a required field. An event that is null or missing
may stand under its other key. -/
def valueOf (row : Row) : RequiredField → Option Value
  | .eventType =>
    match Members.get? row RequiredField.eventType.name, Members.get? row eventAlias with
    | none, none => none
    | none, some value => some value
    | some value, none => some value
    | some value, some other => if value.isNull then some other else some value
  | field => Members.get? row field.name

/-- The first required field that is missing or null. -/
def absence? (row : Row) : Option RecordFault :=
  [RequiredField.entityId, .eventType, .timestamp].findSome? fun field =>
    match valueOf row field with
    | none => some (.missing field)
    | some value => if value.isNull then some (.null field) else none

/-- The first required field of a value that is missing or null. -/
def absenceOf? : Value → Option RecordFault
  | .object row => absence? row
  | _ => some .notObject

/-- Whether every value carries every required field. -/
def allPresent (values : List Value) : Bool := values.all fun value => (absenceOf? value).isNone

/-- Whether a row names its entity by a text that is not empty. -/
def hasEntity (row : Row) : Bool :=
  match Members.get? row RequiredField.entityId.name with
  | some (.text value) => !value.isEmpty
  | _ => false

/-- Why a row is no record, if it is none. -/
def fault? (row : Row) : Option RecordFault :=
  (absence? row).or (if hasEntity row then none else some .entity)

end Record

/-- A row that passed the check. -/
structure Record where
  row : Row
  passes : Record.fault? row = none

namespace Record

/-- The record of a row. -/
def ofRow (row : Row) : Except RecordFault Record :=
  match checked : fault? row with
  | none => .ok ⟨row, checked⟩
  | some fault => .error fault

/-- The record of a value. -/
def ofValue : Value → Except RecordFault Record
  | .object row => ofRow row
  | _ => .error .notObject

/-- The text under a key. -/
def textAt (record : Record) (key : String) : Option String :=
  (Members.get? record.row key).bind Value.text?

/-- The entity. -/
def entityId (record : Record) : Option String := record.textAt RequiredField.entityId.name

/-- The event, if it is a text; one under the first key comes before one under the other. -/
def eventType (record : Record) : Option String :=
  (record.textAt RequiredField.eventType.name).or (record.textAt eventAlias)

/-- The time as it was given. -/
def timestamp (record : Record) : Value :=
  (Members.get? record.row RequiredField.timestamp.name).getD .null

/-- Further details, unless they are null. -/
def details (record : Record) : Option Value :=
  (Members.get? record.row "details").filter fun value => !value.isNull

/-- The record as a value. -/
def toValue (record : Record) : Value := .object record.row

end Record

end LedgerIntake
