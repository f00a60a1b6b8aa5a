import LedgerIntake.Command.Arguments
import LedgerIntake.Network.Endpoint
import LedgerIntake.Settings

/-!
# Reading command lines

The commands, what arguments each of them takes, and where each of them reads. Options that are not
given may stand in the environment. A command line either makes a command, asks for help, or is
refused.
-/

namespace LedgerIntake

/-- What can be asked for. -/
inductive Command where
  | serve (config : Option String) (overrides : Overrides)
  | submit (address : String) (token : Option String) (input : Option String)
  | merkleRoot (input : Option String)
  | blockHash (input : Option String)
  /-- Checks records; a strict check of records of which some are invalid fails. -/
  | validate (input : Option String) (asJson strict : Bool)
  | hashes (input : Option String)
  | canonicalize (input : Option String)
deriving DecidableEq

namespace Command

/-- The number of records that an option gives; it has to fit into 64 bits. -/
def capacity? (value : String) : Option Nat := (writtenNatural? value).filter (· < UInt64.size)

/-- Serving, under settings from a file and from options. -/
def serveShape : Shape where
  name := "serve"
  about := "Run the ingestion server until Ctrl+C"
  options :=
    [{ name := "config", standIn := "TESSERA_CONFIG", about := "Path to a TOML config file" },
      { name := "listen", standIn := "TESSERA_LISTEN"
        about := "Address to listen on (overrides the config file)" },
      { name := "capacity", standIn := "TESSERA_CAPACITY"
        about := "Maximum mempool entries (overrides the config file)"
        accepts := fun value => (capacity? value).isSome },
      { name := "auth-token", standIn := "TESSERA_AUTH_TOKEN", isOpen := false
        about := "Shared token clients must present (overrides the config file)" }]
  takesInput := false

/-- Submitting rows to a server. -/
def submitShape : Shape where
  name := "submit"
  about := "Encode a JSON array of rows as one batch and submit it"
  options :=
    [{ name := "addr", standIn := "TESSERA_ADDR", about := "Server address"
       standard := some Settings.standard.listen },
      { name := "auth-token", standIn := "TESSERA_AUTH_TOKEN"
        about := "Shared token, if the server requires one" }]

/-- Checking records. -/
def validateShape : Shape where
  name := "validate"
  about := "Check that every record carries the required fields"
  flags :=
    [⟨"json", "Output as JSON"⟩,
      ⟨"strict", "Exit with error code if any record is invalid"⟩]

/-- The commands: what each takes, and the command that its arguments make. -/
def offered : List (Shape × (Given → Command)) :=
  [(serveShape, fun given =>
      .serve (given.value? "config")
        ⟨given.value? "listen", (given.value? "capacity").bind capacity?,
          given.value? "auth-token"⟩),
    (submitShape, fun given =>
      .submit ((given.value? "addr").getD Settings.standard.listen) (given.value? "auth-token")
        given.input),
    ({ name := "merkle-root", about := "Print the Merkle root of a JSON array of events" },
      fun given => .merkleRoot given.input),
    ({ name := "block-hash", about := "Print the hash of a JSON block header" },
      fun given => .blockHash given.input),
    (validateShape, fun given =>
      .validate given.input (given.hasFlag "json") (given.hasFlag "strict")),
    ({ name := "hashes", about := "Print one content hash per item of a JSON array" },
      fun given => .hashes given.input),
    ({ name := "canonicalize", about := "Show canonical bytes for input JSON" },
      fun given => .canonicalize given.input)]

/-- What the command of a name takes, and the command that its arguments make. -/
def named? (name : String) : Option (Shape × (Given → Command)) :=
  offered.find? fun entry => entry.1.name = name

/-- What follows the word that asks for help: nothing, or the name of what help is wanted on. -/
def helpOn : List String → Stop
  | [] => .help .program
  | [name] =>
    if name = "help" then .help .help
    else if (named? name).isSome then .help (.command name)
    else .refused
  | _ => .refused

/-- The command of a command line. -/
def parse (environment : String → Option String) : List String → Except Stop Command
  | [] => .error .refused
  | name :: arguments =>
    match Argument.of name with
    | .short letters =>
      .error (if letters.head? = some 'h' then .help .program else .refused)
    | .long word attached =>
      .error (if word = "help" ∧ attached.isNone then .help .program else .refused)
    | .separator => .error .refused
    | .plain _ =>
      if name = "help" then .error (helpOn arguments)
      else
        match named? name with
        | none => .error .refused
        | some (shape, command) => (gather shape environment arguments).map command

/-- Where a command reads. -/
inductive Input where
  | file (path : String)
  | standard
deriving DecidableEq

/-- The input of a command. -/
def input? : Command → Option Input
  | .serve config _ => config.map .file
  | .submit _ _ input | .merkleRoot input | .blockHash input | .validate input _ _ | .hashes input
  | .canonicalize input => some ((input.map .file).getD .standard)

end Command

end LedgerIntake
