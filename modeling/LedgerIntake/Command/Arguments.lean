/-!
# Command-line arguments

A command has a shape: the options that take a value, the flags that take none, and whether it names
one input. Arguments are read from left to right. A value stands in the next argument or behind an
equals sign; nothing may be given twice; and after two lone hyphens every argument is an input. What
begins with a hyphen and is not known is refused, also where a value is due.
-/

namespace LedgerIntake.Command

/-- An option that takes a value. -/
structure ValueOption where
  name : String
  about : String
  /-- The environment variable that stands in for the option where it is not given. -/
  standIn : String
  /-- Whether the contents of that variable may be shown. -/
  isOpen : Bool := true
  /-- What is taken where there is no value. -/
  standard : Option String := none
  /-- Whether a text will do as its value. -/
  accepts : String → Bool := fun _ => true

/-- An option that takes no value. -/
structure Flag where
  name : String
  about : String

/-- What a command takes. -/
structure Shape where
  name : String
  about : String
  options : List ValueOption := []
  flags : List Flag := []
  takesInput : Bool := true

/-- What the arguments gave. -/
structure Given where
  values : List (String × String)
  flags : List String
  input : Option String

/-- What help is asked on. -/
inductive Topic where
  /-- All the commands. -/
  | program
  | command (name : String)
  /-- Help itself. -/
  | help
deriving DecidableEq

/-- Why arguments make no command. -/
inductive Stop where
  /-- They cannot be understood. -/
  | refused
  /-- They ask for help. -/
  | help (topic : Topic)
deriving DecidableEq

namespace Given

/-- Nothing was given. -/
def nothing : Given := ⟨[], [], none⟩

/-- The value of an option. -/
def value? (given : Given) (name : String) : Option String :=
  (given.values.find? fun entry => entry.1 = name).map Prod.snd

/-- Whether a flag was given. -/
def hasFlag (given : Given) (name : String) : Bool := given.flags.contains name

/-- Takes in a value, unless the option has one already or the value will not do. -/
def addValue (given : Given) (option : ValueOption) (value : String) : Except Stop Given :=
  if (given.value? option.name).isSome || !option.accepts value then .error .refused
  else .ok { given with values := (option.name, value) :: given.values }

/-- Takes in a flag, unless it was given before. -/
def addFlag (given : Given) (name : String) : Except Stop Given :=
  if given.hasFlag name then .error .refused
  else .ok { given with flags := name :: given.flags }

/-- Takes in an input, if one is taken and none was given before. -/
def addInput (given : Given) (shape : Shape) (input : String) : Except Stop Given :=
  if shape.takesInput && given.input.isNone then .ok { given with input := some input }
  else .error .refused

end Given

/-- What kind of argument a text is. -/
inductive Argument where
  /-- Two lone hyphens. -/
  | separator
  /-- A name behind two hyphens, and a value behind an equals sign. -/
  | long (name : String) (attached : Option String)
  /-- Letters behind one hyphen. -/
  | short (letters : List Char)
  | plain (text : String)

/-- The kind of an argument. A lone hyphen is a text like any other. -/
def Argument.of (text : String) : Argument :=
  match text.toList with
  | ['-', '-'] => .separator
  | '-' :: '-' :: written =>
    let name := String.ofList (written.takeWhile (· ≠ '='))
    match written.dropWhile (· ≠ '=') with
    | [] => .long name none
    | _ :: value => .long name (some (String.ofList value))
  | '-' :: letter :: letters => .short (letter :: letters)
  | _ => .plain text

/-- Whether an argument can be a value. -/
def Argument.isValue (text : String) : Bool :=
  match Argument.of text with
  | .plain _ => true
  | _ => false

/-- Reads arguments, given what those before them gave. -/
def readArguments (shape : Shape) (given : Given) : List String → Except Stop Given
  | [] => .ok given
  | text :: rest =>
    match Argument.of text with
    | .separator => rest.foldlM (fun given input => given.addInput shape input) given
    | .plain input =>
      match given.addInput shape input with
      | .ok given => readArguments shape given rest
      | .error stop => .error stop
    | .short letters =>
      .error (if letters.head? = some 'h' then .help (.command shape.name) else .refused)
    | .long name attached =>
      if name = "help" then
        .error (if attached.isNone then .help (.command shape.name) else .refused)
      else if shape.flags.any fun flag => flag.name = name then
        match attached, given.addFlag name with
        | none, .ok given => readArguments shape given rest
        | _, _ => .error .refused
      else
        match shape.options.find? fun option => option.name = name with
        | none => .error .refused
        | some option =>
          match attached, rest with
          | some value, rest =>
            match given.addValue option value with
            | .ok given => readArguments shape given rest
            | .error stop => .error stop
          | none, value :: rest =>
            if Argument.isValue value then
              match given.addValue option value with
              | .ok given => readArguments shape given rest
              | .error stop => .error stop
            else .error .refused
          | none, [] => .error .refused

/-- Lets environment variables stand in for options that were not given. -/
def fillIn (environment : String → Option String) (given : Given) (option : ValueOption) :
    Except Stop Given :=
  match given.value? option.name, environment option.standIn with
  | none, some value => given.addValue option value
  | _, _ => .ok given

/-- What arguments and environment variables give together. -/
def gather (shape : Shape) (environment : String → Option String) (arguments : List String) :
    Except Stop Given := do
  let given ← readArguments shape .nothing arguments
  shape.options.foldlM (fillIn environment) given

end LedgerIntake.Command
