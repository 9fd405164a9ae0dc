import DocPages.Settings.Basic
import DocPages.Text.Splitting

/-!
# Command line arguments

The grammar of the command line. Flags and options are written `--long`, `--long value`,
`--long=value`, `-s`, `-s value`, `-svalue` or `-s=value`, and flags of one letter may be written
together. Two of them are known everywhere, the others only to their command. Each is given at most
once. The value that follows an option as an argument of its own is only judged when the next option
is read, so that an unknown one after it is reported first.
-/

namespace DocPages

namespace CommandLine

/-- How a page tree is printed. -/
inductive Format where
  | outline
  | markdown
deriving DecidableEq, Repr, Inhabited

/-- The format of a name. -/
def Format.ofName? : String → Option Format
  | "outline" => some .outline
  | "markdown" => some .markdown
  | _ => none

/-- A flag that is on if it is given. -/
inductive Flag where
  | verbose
  | noColor
  | mergeVariants
  | separateInherited
  | allTypes
  | failOnErrors
deriving DecidableEq, Repr, Inhabited

/-- An option with a value. -/
inductive ValueOption where
  | input
  | config
  | format
deriving DecidableEq, Repr, Inhabited

/-- The arguments of the command that generates pages. -/
structure GenerateArguments where
  /-- The path of the module. -/
  input : String
  /-- The path of the settings file, if one is named. -/
  config : Option String
  format : Format
  mergeVariants : Bool
  separateInherited : Bool
  allTypes : Bool
  failOnErrors : Bool
deriving DecidableEq, Repr, Inhabited

/-- Settings with those switched on that have a flag. -/
def GenerateArguments.applyTo (arguments : GenerateArguments) (settings : Settings) : Settings where
  mergeVariants := settings.mergeVariants || arguments.mergeVariants
  separateInherited := settings.separateInherited || arguments.separateInherited
  listAllTypes := settings.listAllTypes || arguments.allTypes

/-- A command line that was understood. -/
structure Invocation where
  command : Option GenerateArguments
  verbose : Bool
  noColor : Bool
deriving DecidableEq, Repr, Inhabited

/-- Why a command line is not run. -/
inductive Halt where
  /-- Help is asked for. -/
  | help
  /-- The version is asked for. -/
  | version
  | unknownCommand
  | unknownArgument
  /-- An argument that has to be given is missing. -/
  | missingArgument
  /-- An argument is given twice. -/
  | repeatedArgument
  /-- An option has no value or one that it does not take. -/
  | invalidValue
  /-- A flag has a value. -/
  | superfluousValue
deriving DecidableEq, Repr, Inhabited

/-- The part of the command line that a flag or option stands in. -/
inductive Level where
  | program
  | generate
deriving DecidableEq, Repr, Inhabited

/-- What a flag or option does. -/
inductive Effect where
  | set (flag : Flag)
  | take (option : ValueOption)
  | halt (reason : Halt)
deriving DecidableEq, Repr, Inhabited

/-- The effect of a long name. -/
def longEffect? : Level → String → Option Effect
  | _, "verbose" => some (.set .verbose)
  | _, "no-color" => some (.set .noColor)
  | _, "help" => some (.halt .help)
  | .program, "version" => some (.halt .version)
  | .generate, "input" => some (.take .input)
  | .generate, "config" => some (.take .config)
  | .generate, "format" => some (.take .format)
  | .generate, "merge-implicit-expect-actual" => some (.set .mergeVariants)
  | .generate, "separate-inherited-members" => some (.set .separateInherited)
  | .generate, "all-types" => some (.set .allTypes)
  | .generate, "fail-on-errors" => some (.set .failOnErrors)
  | _, _ => none

/-- The effect of a one-letter name. -/
def shortEffect? : Level → Char → Option Effect
  | _, 'v' => some (.set .verbose)
  | _, 'h' => some (.halt .help)
  | .program, 'V' => some (.halt .version)
  | .generate, 'i' => some (.take .input)
  | .generate, 'c' => some (.take .config)
  | _, _ => none

/-- The value is one that the option takes. -/
def ValueOption.accepts (option : ValueOption) (value : String) : Bool :=
  match option with
  | .input | .config => !value.isEmpty
  | .format => (Format.ofName? value).isSome

/-- What was read of one part of the command line. -/
structure Reading where
  flags : List Flag := []
  values : List (ValueOption × String) := []
  /-- The last option, if its value was not attached to it, and the value once it was read. -/
  pending : Option (ValueOption × Option String) := none
deriving DecidableEq, Repr, Inhabited

namespace Reading

/-- The value of an option. -/
def value? (reading : Reading) (option : ValueOption) : Option String :=
  (reading.values.find? fun entry => entry.1 = option).map Prod.snd

/-- The reading with the value of an option. -/
def give (option : ValueOption) (value : String) (reading : Reading) : Except Halt Reading :=
  if (reading.value? option).isSome then .error .repeatedArgument
  else if option.accepts value then
    .ok { reading with values := reading.values ++ [(option, value)] }
  else .error .invalidValue

/-- The reading with the last option judged. -/
def settle (reading : Reading) : Except Halt Reading :=
  match reading.pending with
  | none => .ok reading
  | some (_, none) => .error .invalidValue
  | some (option, some value) => give option value { reading with pending := none }

/-- The reading after an effect, which for an option may come with an attached value. -/
def perform (effect : Effect) (attached : Option String) (reading : Reading) :
    Except Halt Reading := do
  let settled ← reading.settle
  match effect, attached with
  | .halt reason, _ => .error reason
  | .set flag, _ =>
    if flag ∈ settled.flags then .error .repeatedArgument
    else .ok { settled with flags := settled.flags ++ [flag] }
  | .take option, some value => give option value settled
  | .take option, none => .ok { settled with pending := some (option, none) }

/-- The reading after a flag or option with a long name. -/
def readLong (level : Level) (body : String) (reading : Reading) : Except Halt Reading :=
  let (name, attached) :=
    match Text.splitOnce '=' body with
    | some (name, value) => (name, some value)
    | none => (body, none)
  match longEffect? level name, attached with
  | none, _ => .error .unknownArgument
  | some (.take option), _ => reading.perform (.take option) attached
  | some _, some _ => .error .superfluousValue
  | some effect, none => reading.perform effect none

/-- The reading after the letters of one argument. -/
def readShort (level : Level) : List Char → Reading → Except Halt Reading
  | [], reading => .ok reading
  | letter :: rest, reading =>
    match shortEffect? level letter with
    | none => .error .unknownArgument
    | some (.take option) =>
      let attached :=
        match rest with
        | [] => none
        | '=' :: value => some (String.ofList value)
        | value => some (String.ofList value)
      reading.perform (.take option) attached
    | some effect => do readShort level rest (← reading.perform effect none)

/-- The reading after an argument that starts with a hyphen, or nothing for another argument. -/
def readOption? (level : Level) (argument : String) (reading : Reading) :
    Option (Except Halt Reading) :=
  match argument.toList with
  | ['-'] => none
  | '-' :: '-' :: body => some (reading.readLong level (String.ofList body))
  | '-' :: letters => some (readShort level letters reading)
  | _ => none

end Reading

/-- Read the arguments of the command that generates pages. It takes no arguments but its options,
also after two hyphens. -/
def readGenerate : Reading → List String → Except Halt Reading
  | reading, [] => reading.settle
  | reading, argument :: rest =>
    if argument = "--" then
      if rest.isEmpty then reading.settle else .error .unknownArgument
    else
      match reading.readOption? .generate argument, reading.pending with
      | some result, _ => do readGenerate (← result) rest
      | none, some (option, none) =>
        readGenerate { reading with pending := some (option, some argument) } rest
      | none, _ => .error .unknownArgument

/-- The arguments that were read for the command that generates pages. -/
def Reading.generateArguments (reading : Reading) : Except Halt GenerateArguments :=
  match reading.value? .input with
  | none => .error .missingArgument
  | some input =>
    .ok {
      input
      config := reading.value? .config
      format := ((reading.value? .format).bind Format.ofName?).getD .outline
      mergeVariants := .mergeVariants ∈ reading.flags
      separateInherited := .separateInherited ∈ reading.flags
      allTypes := .allTypes ∈ reading.flags
      failOnErrors := .failOnErrors ∈ reading.flags }

/-- The commands by name. -/
def commandNames : List String := ["generate", "help"]

/-- Help on a command, which may be named. -/
def helpOn : List String → Halt
  | [] => .help
  | [name] => if name ∈ commandNames then .help else .unknownCommand
  | _ => .unknownCommand

/-- Read the arguments before the command, and the command. -/
def readProgram : Reading → List String → Except Halt Invocation
  | reading, [] =>
    .ok {
      command := none
      verbose := .verbose ∈ reading.flags
      noColor := .noColor ∈ reading.flags }
  | reading, argument :: rest =>
    if argument = "generate" then do
      let own ← readGenerate {} rest
      let flags := reading.flags ++ own.flags
      return {
        command := some (← own.generateArguments)
        verbose := .verbose ∈ flags
        noColor := .noColor ∈ flags }
    else if argument = "help" then .error (helpOn rest)
    else if argument = "--" then
      match rest with
      | [] => readProgram reading []
      | next :: _ => .error (if next ∈ commandNames then .unknownArgument else .unknownCommand)
    else
      match reading.readOption? .program argument with
      | some result => do readProgram (← result) rest
      | none => .error .unknownCommand

/-- The invocation that the arguments after the name of the program state. -/
def parse (arguments : List String) : Except Halt Invocation :=
  readProgram {} arguments

end CommandLine

end DocPages
