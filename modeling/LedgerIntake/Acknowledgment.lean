import LedgerIntake.Json.Fields
import LedgerIntake.Json.Writer

/-!
# Acknowledgments

Every batch is answered by one acknowledgment. Acceptance is the two letters `OK`; a rejection is an
object that names the kind of the fault, gives a message, and lists the rows at fault where there
are any. No object begins with those letters, so a payload is read back as what it was written for.
-/

namespace LedgerIntake

open Json

/-- The kinds of rejection. -/
inductive RejectionKind where
  /-- The payload is no batch. -/
  | codec
  /-- Some row is no record. -/
  | validation
  /-- The pool has not room for the batch. -/
  | capacity
  /-- The message is too long. -/
  | framing
  /-- The connection is not authenticated. -/
  | auth
deriving DecidableEq

namespace RejectionKind

/-- The name of a kind. -/
def name : RejectionKind → String
  | .codec => "codec"
  | .validation => "validation"
  | .capacity => "capacity"
  | .framing => "framing"
  | .auth => "auth"

/-- All kinds, in the order in which they are listed. -/
def all : List RejectionKind := [.codec, .validation, .capacity, .framing, .auth]

/-- The kind with a name. -/
def ofName? (name : String) : Option RejectionKind := all.find? fun kind => kind.name = name

/-- Reads a kind: its name, or an object with the name as its only key and null under it. -/
def read? : Source → Option RejectionKind
  | .text raw => (resolveText? raw).bind ofName?
  | .object [(key, .null)] => (resolveText? key).bind ofName?
  | _ => none

end RejectionKind

/-- What is wrong with one row of a batch; rows count from zero. -/
structure RowFault where
  row : UInt64
  field : Option String
  reason : String
deriving DecidableEq

namespace RowFault

/-- The members that describe a fault; a field that is not known is left out. -/
def members (fault : RowFault) : List (String × String) :=
  [("row", fault.row.toNat.repr)]
    ++ (match fault.field with
      | some field => [("field", quoted field)]
      | none => [])
    ++ [("reason", quoted fault.reason)]

/-- The fault as an object. -/
def toText (fault : RowFault) : String := object fault.members

/-- Reads a fault. -/
def read? (source : Source) : Option RowFault := do
  match ← source.fields? ["row", "field", "reason"] with
  | [some row, field, some reason] =>
    return ⟨← row.natural?, ← Source.optional? Source.text? field, ← reason.text?⟩
  | _ => none

end RowFault

/-- Why a batch or a connection is turned down. -/
structure Rejection where
  kind : RejectionKind
  message : String
  rows : List RowFault
deriving DecidableEq

namespace Rejection

/-- The members that describe a rejection, given the text of its list of faulty rows; if there are
none the list is left out. -/
def members (rejection : Rejection) (rows : String) : List (String × String) :=
  [("error", quoted rejection.kind.name), ("message", quoted rejection.message)]
    ++ (if rejection.rows.isEmpty then [] else [("rows", rows)])

/-- The rejection as an object. -/
def toText (rejection : Rejection) : String :=
  object (rejection.members (brackets (rejection.rows.map RowFault.toText)))

/-- The rejection as an object over several lines. -/
def toIndentedText (rejection : Rejection) : String :=
  let rows := rejection.rows.map fun fault => indentedObject 2 fault.members
  indentedObject 0 (rejection.members (indentedBlock "[" "]" 1 rows))

/-- Reads the list of faulty rows, which is empty if it is absent. -/
def readRows? : Option Source → Option (List RowFault)
  | none => some []
  | some written => do (← written.items?).mapM RowFault.read?

/-- Reads a rejection. -/
def read? (source : Source) : Option Rejection := do
  match ← source.fields? ["error", "message", "rows"] with
  | [some kind, some message, rows] =>
    return ⟨← RejectionKind.read? kind, ← message.text?, ← readRows? rows⟩
  | _ => none

end Rejection

/-- The answer to a batch. -/
inductive Acknowledgment where
  /-- Every row was admitted. -/
  | accepted
  /-- No row was admitted. -/
  | rejected (rejection : Rejection)
deriving DecidableEq

namespace Acknowledgment

/-- The payload of an acceptance. -/
def acceptance : Bytes := Utf8.encode "OK"

/-- The payload that carries an acknowledgment. -/
def payload : Acknowledgment → Bytes
  | .accepted => acceptance
  | .rejected rejection => Utf8.encode rejection.toText

/-- Reads a payload. -/
def ofPayload? (bytes : Bytes) : Option Acknowledgment :=
  if bytes = acceptance then some .accepted
  else ((Source.read? bytes).bind Rejection.read?).map .rejected

end Acknowledgment

end LedgerIntake
