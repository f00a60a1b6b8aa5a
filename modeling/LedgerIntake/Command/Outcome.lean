import LedgerIntake.Block
import LedgerIntake.Client
import LedgerIntake.Command.Parse

/-!
# Outcomes of commands

What a command leaves behind: the text on its output, the warnings in front of its errors, and why
it failed if it did. Everything that can go wrong with an input has its own failure.
-/

namespace LedgerIntake.Command

open Json

/-- Why a command failed. -/
inductive Failure where
  | unreadable (input : Input) (reason : String)
  /-- The input is no JSON text. -/
  | notJson (text : String)
  /-- Something else than the array that is due. -/
  | notArray (found : Batch.ValueKind)
  /-- An item that is no object, so that it cannot be submitted. -/
  | notRow (index : Nat)
  | header (refusal : BlockHeader.Refusal)
  /-- Some record does not pass a strict check. -/
  | invalid
  | settings (error : SettingsError)
  | unbound (address reason : String)
  | unconnected (address : String) (error : ClientError)
  | client (error : ClientError)
  | rejected (message : String)
deriving DecidableEq

/-- A kind of value with its article. -/
def kindPhrase : Batch.ValueKind → String
  | .null => "null"
  | .bool => "a boolean"
  | .number => "a number"
  | .text => "a string"
  | .array => "an array"
  | .object => "an object"

/-- The wording of a failure. -/
def Failure.message [Diagnostics] : Failure → String
  | .unreadable (.file path) reason => "Failed to read file " ++ path ++ ": " ++ reason
  | .unreadable .standard reason => reason
  | .notJson text => "Invalid JSON: " ++ Diagnostics.ofJson (Utf8.encode text)
  | .notArray found => "Expected a JSON array, got " ++ kindPhrase found
  | .notRow index => "Row " ++ index.repr ++ " is not a JSON object"
  | .header refusal => refusal.message
  | .invalid => "Validation failed"
  | .settings error => error.message
  | .unbound address reason => "failed to bind " ++ address ++ ": " ++ reason
  | .unconnected address error => "Failed to connect to " ++ address ++ ": " ++ error.message
  | .client error => error.message
  | .rejected message => "Batch rejected: " ++ message

/-- What a command printed on its two outputs, and how it failed if it did. -/
structure Outcome where
  output : String
  warnings : String
  failure : Option Failure
deriving DecidableEq

namespace Outcome

/-- A success that prints a text. -/
def success (output : String) : Outcome := ⟨output, "", none⟩

/-- A failure before anything is printed. -/
def fail (failure : Failure) : Outcome := ⟨"", "", some failure⟩

/-- What is printed on the output for errors. -/
def errors [Diagnostics] (outcome : Outcome) : String :=
  outcome.warnings
    ++ (match outcome.failure with
      | some failure => "Error: " ++ failure.message ++ "\n"
      | none => "")

/-- The status that the command ends with. -/
def status (outcome : Outcome) : Nat := if outcome.failure.isSome then 1 else 0

end Outcome

/-- The value that an input holds. -/
def readValue (input : Input) (contents : Except String Bytes) : Except Failure Value :=
  match contents with
  | .error reason => .error (.unreadable input reason)
  | .ok bytes =>
    match Utf8.decode? bytes with
    | none => .error (.unreadable input Settings.notText)
    | some text =>
      match read? text with
      | some value => .ok value
      | none => .error (.notJson text)

/-- The items of the array that an input holds. -/
def readItems (input : Input) (contents : Except String Bytes) : Except Failure (List Value) := do
  match ← readValue input contents with
  | .array items => return items
  | other => .error (.notArray (.of other))

/-- Rows of the items of an array, all of which have to be objects. -/
def rowsOf (items : List Value) : Except Failure (List Batch.Row) :=
  items.zipIdx.mapM fun (item, index) =>
    match item with
    | .object row => .ok row
    | _ => .error (.notRow index)

/-- A line for each text. -/
def lines (texts : List String) : String := String.join (texts.map (· ++ "\n"))

end LedgerIntake.Command
