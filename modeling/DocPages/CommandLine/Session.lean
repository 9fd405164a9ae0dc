import DocPages.CommandLine.Arguments
import DocPages.Generation
import DocPages.Output.Markdown
import DocPages.Output.Outline
import DocPages.Settings.Discovery

/-!
# Runs of the program

What a run prints and how it ends, given its arguments and a file system. Settings come from the
named file, or else from the one that is found, or else are the default; flags can only switch them
on. The settings are read before the module.
-/

namespace DocPages

namespace CommandLine

/-- The line that `--version` prints. -/
def versionLine : String := "pagetree_cli 0.1.0"

/-- Colors of the summary. -/
inductive Color where
  | red
  | green
  | yellow
deriving DecidableEq, Repr, Inhabited

/-- The terminal code of a color. -/
def Color.code : Color → String
  | .red => "31"
  | .green => "32"
  | .yellow => "33"

/-- A text in a color, if colors are in use. -/
def paint (usesColor : Bool) (color : Color) (text : String) : String :=
  if usesColor then "\x1b[" ++ color.code ++ "m" ++ text ++ "\x1b[39m" else text

/-- How a run ends. -/
inductive Ending where
  /-- The run did what it was asked for. -/
  | success
  /-- The arguments were not understood, or ask for help or the version. -/
  | halt (reason : Halt)
  /-- No command was given. -/
  | noCommand
  | failure (cause : Failure)
deriving DecidableEq, Inhabited

/-- What a run leaves behind. -/
structure Outcome where
  ending : Ending
  /-- The text on the standard output. -/
  output : String := ""
  /-- The last line on the error output that is not about a failure. -/
  summary : Option String := none
  problems : List Problem := []
deriving DecidableEq, Inhabited

/-- The exit code of a run: one if errors were reported in a run that must not report any, and two
for every other failure. -/
def Outcome.exitCode (outcome : Outcome) : Nat :=
  match outcome.ending with
  | .success | .halt .help | .halt .version => 0
  | .failure (.reportedErrors ..) => 1
  | _ => 2

/-- The line that sums up a generation. -/
def summaryLine (usesColor : Bool) (moduleName : String) (pages : Nat) (report : Report) : String :=
  let counted := " " ++ toString pages ++ " page(s) for module `" ++ moduleName ++ "`"
  if report.isClean then paint usesColor .green "Generated" ++ counted
  else
    paint usesColor .yellow "Generated" ++ counted ++ " with " ++ toString report.errors ++
      " error(s) and " ++ toString report.warnings ++ " warning(s)"

/-- A page tree in a format. -/
def Format.print (format : Format) (decl : ModuleDecl) (root : Page) : String :=
  match format with
  | .outline => root.outline
  | .markdown => root.markdown (.ofList decl.sourceSets)

/-- The outcome of a finished generation. -/
def finish (usesColor : Bool) (arguments : GenerateArguments) (decl : ModuleDecl)
    (generated : Generated) : Outcome where
  output := arguments.format.print decl generated.root
  summary := some (summaryLine usesColor decl.name generated.root.count generated.report)
  problems := generated.problems
  ending :=
    if arguments.failOnErrors && generated.report.hasErrors then
      .failure (.reportedErrors decl.name generated.report.errors)
    else .success

variable {m : Type → Type} [Monad m]

/-- The settings of a run. -/
def resolveSettings (files : Files m) (arguments : GenerateArguments) :
    ExceptT Failure m Settings := do
  let settings ←
    match arguments.config with
    | some path => ExceptT.mk (Settings.loadFile files path)
    | none => ExceptT.mk do
      match ← Settings.load? files with
      | some loaded => return loaded
      | none => return .ok {}
  return arguments.applyTo settings

/-- The module in the file at a path. -/
def loadModule (files : Files m) (path : String) : ExceptT Failure m ModuleDecl := do
  match ← files.readText path with
  | some text => ExceptT.mk (return ModuleDecl.parse path text)
  | none => throw .unreadableFile

/-- Generate the pages of a module and print them. -/
def generate (files : Files m) (usesColor : Bool) (arguments : GenerateArguments) :
    ExceptT Failure m Outcome := do
  let settings ← resolveSettings files arguments
  let decl ← loadModule files arguments.input
  let generated ← ExceptT.mk (return decl.generate settings)
  return finish usesColor arguments decl generated

/-- The outcome of an invocation. -/
def runInvocation (files : Files m) (usesColor : Bool) (invocation : Invocation) : m Outcome := do
  match invocation.command with
  | none =>
    return {
      ending := .noCommand
      summary := some <| paint usesColor .red "error:" ++
        " no subcommand specified. Run `pagetree --help` for usage." }
  | some arguments =>
    match ← (generate files usesColor arguments).run with
    | .ok outcome => return outcome
    | .error cause => return { ending := .failure cause }

/-- The outcome of a run, in which colors may be used unless an argument forbids them. -/
def run (files : Files m) (allowsColor : Bool) (arguments : List String) : m Outcome := do
  match parse arguments with
  | .ok invocation => runInvocation files (allowsColor && !invocation.noColor) invocation
  | .error .version =>
    return { ending := .halt .version, output := versionLine ++ "\n" }
  | .error reason => return { ending := .halt reason }

end CommandLine

end DocPages
