import LedgerIntake.Command.Outcome
import LedgerIntake.Record

/-!
# Verdicts on records

The check of required fields, told record by record: as a table for readers, or as an object for
programs.
-/

namespace LedgerIntake.Command

open Json

/-- A text filled up with blanks to a width. -/
def padded (width : Nat) (text : String) : String :=
  text ++ String.ofList (List.replicate (width - text.length) ' ')

/-- A line of the table of verdicts. -/
def tableLine (row verdict : String) : String := padded 8 row ++ " " ++ padded 10 verdict

/-- The verdicts on some records as a table. -/
def verdictTable (faults : List (Option RecordFault)) : String :=
  let invalid := (faults.filter Option.isSome).length
  lines
    ([tableLine "ROW" "VERDICT" ++ " REASON", String.ofList (List.replicate 60 '-')]
      ++ (faults.zipIdx.map fun (fault, row) =>
        match fault with
        | none => tableLine row.repr "ok"
        | some fault => tableLine row.repr "invalid" ++ " " ++ fault.message)
      ++ ["", faults.length.repr ++ " records, " ++ invalid.repr ++ " invalid: batch "
        ++ (if invalid = 0 then "valid" else "invalid")])

/-- The verdict on one record as an object. -/
def verdictObject (fault : Option RecordFault) (row : Nat) : Value :=
  let place := ("row", Value.number (.ofNat row))
  match fault with
  | none => .object [place, ("valid", .bool true)]
  | some fault =>
    .object
      [("field", match fault.field? with
        | some field => .text field.name
        | none => .null),
       ("reason", .text fault.message), place, ("valid", .bool false)]

/-- The verdicts on some records as an object. -/
def verdictReport (faults : List (Option RecordFault)) : Value :=
  .object
    [("rows", .array (faults.zipIdx.map fun (fault, row) => verdictObject fault row)),
     ("total", .number (.ofNat faults.length)),
     ("valid", .bool (faults.all Option.isNone))]

/-- The verdicts on some records. -/
def validation (asJson strict : Bool) (records : List Value) : Outcome :=
  let faults := records.map Record.absenceOf?
  { output :=
      if asJson then (verdictReport faults).writeIndented 0 ++ "\n" else verdictTable faults
    warnings := ""
    failure := if strict && !Record.allPresent records then some .invalid else none }

end LedgerIntake.Command
