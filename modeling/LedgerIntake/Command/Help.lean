import LedgerIntake.Command.Outcome

/-!
# Help

What is printed to those who ask for help: what a command is for, how it is called, and what each of
its arguments means. The terms of a section stand in one column, and what they mean in another.
-/

namespace LedgerIntake.Command

/-- A term and what it means. -/
structure HelpEntry where
  term : String
  meaning : String

namespace HelpEntry

/-- An entry whose meaning begins at a column. -/
def line (column : Nat) (entry : HelpEntry) : String :=
  String.ofList (("  " ++ entry.term).toList.rightpad column ' ') ++ entry.meaning

/-- Entries under a title. -/
def sectionLines (title : String) (entries : List HelpEntry) : List String :=
  let width := (entries.map fun entry => entry.term.length).foldl max 0
  if entries.isEmpty then []
  else
    "" :: (title ++ ":") :: entries.map (line (width + 4))

/-- The entry of the input. -/
def input : HelpEntry := ⟨"[INPUT]", "Input JSON file (or stdin if not provided)"⟩

/-- The entry of the option that asks for help. -/
def help : HelpEntry := ⟨"-h, --help", "Print help"⟩

/-- What stands for the value of an option. -/
def valueName (option : ValueOption) : String :=
  String.ofList (option.name.toList.map fun char => if char = '-' then '_' else char.toUpper)

/-- What is told of the variable that stands in for an option. -/
def standInNote (environment : String → Option String) (option : ValueOption) : String :=
  let contents := if option.isOpen then "=" ++ (environment option.standIn).getD "" else ""
  " [env: " ++ option.standIn ++ contents ++ "]"

/-- What is told of the value that is taken where none is given. -/
def standardNote (option : ValueOption) : String :=
  match option.standard with
  | some value => " [default: " ++ value ++ "]"
  | none => ""

/-- The entry of an option that takes a value. -/
def ofOption (environment : String → Option String) (option : ValueOption) : HelpEntry :=
  ⟨"    --" ++ option.name ++ " <" ++ valueName option ++ ">",
    option.about ++ standInNote environment option ++ standardNote option⟩

/-- The entry of a flag. -/
def ofFlag (flag : Flag) : HelpEntry := ⟨"    --" ++ flag.name, flag.about⟩

/-- The entry of a command. -/
def ofShape (shape : Shape) : HelpEntry := ⟨shape.name, shape.about⟩

end HelpEntry

namespace Shape

/-- How a command is called. -/
def usage (shape : Shape) : String :=
  let options := if shape.options.isEmpty && shape.flags.isEmpty then "" else " [OPTIONS]"
  "Usage: tessera " ++ shape.name ++ options ++ (if shape.takesInput then " [INPUT]" else "")

/-- The help on a command. -/
def help (environment : String → Option String) (shape : Shape) : String :=
  lines
    ([shape.about, "", shape.usage]
      ++ HelpEntry.sectionLines "Arguments" (if shape.takesInput then [.input] else [])
      ++ HelpEntry.sectionLines "Options"
        (shape.options.map (.ofOption environment) ++ shape.flags.map .ofFlag ++ [.help]))

end Shape

/-- How the program is called. -/
def programUsage : String := "Usage: tessera <COMMAND>"

/-- What the word for help is for. -/
def helpAbout : String := "Print this message or the help of the given subcommand(s)"

/-- The help on a topic. -/
def Topic.text (environment : String → Option String) : Topic → String
  | .program =>
    lines
      (["Tessera transaction ingestion and consensus primitives CLI", "", programUsage]
        ++ HelpEntry.sectionLines "Commands"
          (offered.map (fun entry => .ofShape entry.1) ++ [⟨"help", helpAbout⟩])
        ++ HelpEntry.sectionLines "Options" [.help])
  | .help =>
    lines
      ([helpAbout, "", "Usage: tessera help [COMMAND]..."]
        ++ HelpEntry.sectionLines "Arguments"
          [⟨"[COMMAND]...", "Print help for the subcommand(s)"⟩])
  | .command name =>
    match named? name with
    | some (shape, _) => shape.help environment
    | none => ""

/-- What is printed to those whose arguments are refused. -/
def refusalText : String := lines [programUsage, "", "For more information, try '--help'."]

end LedgerIntake.Command
