import LedgerIntake.Command.Verdicts
import LedgerIntake.Merkle

/-!
# Commands

What a command does with its input. A command reads at most one input, a file or the standard input;
given that input, its outcome is a pure function, except that submitting and serving go on over the
network. `Command.proceed` tells which of these comes next.
-/

namespace LedgerIntake

open Json

namespace Command

/-- The canonical text of a value, after a warning for each kind of change. -/
def canonicalText (value : Value) : Outcome :=
  { output := lines [Canonical.text value]
    warnings := lines ((Canonical.report value).warnings.map fun warning =>
      "warning: " ++ warning.code)
    failure := none }

/-- What comes after the input has been read. -/
inductive Next where
  | finish (outcome : Outcome)
  /-- Submit rows to the server at an address. -/
  | submit (address : String) (token : Option String) (rows : List Batch.Row)
  /-- Serve until told to stop. -/
  | serve (settings : Settings)

/-- Prints what was computed, or fails. -/
def Next.ofResult {α : Type} (print : α → Outcome) : Except Failure α → Next
  | .ok result => .finish (print result)
  | .error failure => .finish (.fail failure)

/-- Carries a command on from the contents of its input, or why there are none. -/
def proceed (command : Command) (contents : Except String Bytes) : Next :=
  let input := command.input?.getD .standard
  match command with
  | .serve config overrides =>
    match overrides.resolve config contents with
    | .ok settings => .serve settings
    | .error error => .finish (.fail (.settings error))
  | .submit address token _ =>
    match (readItems input contents).bind rowsOf with
    | .ok rows => .submit address token rows
    | .error failure => .finish (.fail failure)
  | .merkleRoot _ =>
    .ofResult (fun items => .success (lines [(Merkle.rootOf items).toText]))
      (readItems input contents)
  | .blockHash _ =>
    .ofResult (fun value =>
        match BlockHeader.hashOf value with
        | .ok digest => .success (lines [digest.toText])
        | .error refusal => .fail (.header refusal))
      (readValue input contents)
  | .validate _ asJson strict => .ofResult (validation asJson strict) (readItems input contents)
  | .hashes _ =>
    .ofResult (fun items => .success (lines ((Merkle.hashes items).map Digest.toText)))
      (readItems input contents)
  | .canonicalize _ => .ofResult canonicalText (readValue input contents)

/-- What is printed of the answer to a submission. -/
def submitted : Except ClientError Acknowledgment → Outcome
  | .ok .accepted => .success (lines ["OK"])
  | .ok (.rejected rejection) =>
    ⟨lines [rejection.toIndentedText], "", some (.rejected rejection.message)⟩
  | .error error => .fail (.client error)

end Command

namespace Link

/-- Offers a token if there is one, and submits rows after that. -/
def submit [Diagnostics] (link : Link) (token : Option String) (rows : List Batch.Row)
    (elapsed : Elapsed) : Except ClientError Acknowledgment × Link :=
  match token with
  | none => link.submitRows rows elapsed
  | some token =>
    match link.authenticate token elapsed with
    | (.ok (), link) => link.submitRows rows elapsed
    | (.error error, link) => (.error error, link)

end Link

end LedgerIntake
