import LedgerIntake.Command.Help
import LedgerIntake.Tcp.Listener
import LedgerIntake.Tcp.Submission

/-!
# Command line

Reads the arguments, the environment and the one input of a command, carries the command on, and
prints its outcome. The status is 0 after a success, 1 after a failure, and 2 where the arguments
make no command.
-/

namespace LedgerIntake.Command

/-- The variables that stand in for options, as the environment has them. -/
def surroundings : IO (String → Option String) := do
  let names := offered.flatMap fun entry => entry.1.options.map ValueOption.standIn
  let found ← names.mapM fun name => return (name, ← IO.getEnv name)
  return fun name => (found.lookup name).join

/-- What an input holds. -/
def Input.contents (input : Input) : IO (Except String Bytes) := do
  try
    let bytes ←
      match input with
      | .file path => IO.FS.readBinFile path
      | .standard => do (← IO.getStdin).readBinToEnd
    return .ok (Tcp.unpacked bytes)
  catch error => return .error (Tcp.reason error)

/-- Carries a command on to its outcome. -/
def run [Diagnostics] (command : Command) : IO Outcome := do
  let contents ←
    match command.input? with
    | some input => input.contents
    | none => pure (.ok [])
  match command.proceed contents with
  | .finish outcome => return outcome
  | .submit address token rows => (Tcp.submit address token rows).block
  | .serve settings => (Tcp.serve settings).block

end LedgerIntake.Command

open LedgerIntake in
/-- Carries out the command that the arguments make. Of a text that cannot be read, messages say
only that it is malformed. -/
def main (arguments : List String) : IO UInt32 := do
  let environment ← Command.surroundings
  match Command.parse environment arguments with
  | .error (.help topic) =>
    IO.print (topic.text environment)
    return 0
  | .error .refused =>
    IO.eprint Command.refusalText
    return 2
  | .ok command =>
    let _ : Diagnostics := .plain
    let outcome ← command.run
    IO.print outcome.output
    IO.eprint outcome.errors
    return .ofNat outcome.status
