import DocPages.CommandLine.Session
import DocPages.CommandLine.Usage

/-!
# The program

The command line program: it reads files from the disk, prints pages on the standard output, and
everything else on the error output.
-/

namespace DocPages

namespace CommandLine

/-- The file system of the machine. -/
def disk : Files IO where
  isFile path :=
    try
      let handle ← IO.FS.Handle.mk path .read
      discard <| handle.read 1
      return true
    catch _ => return false
  readText path :=
    try return some (← IO.FS.readFile path)
    catch _ => return none

/-- The line that logs a problem. -/
def logLine (problem : Problem) : String :=
  (match problem.severity with
    | .error => "ERROR "
    | .warning => "WARN ") ++ problem.message TypeUse.display

/-- Print what a run leaves behind. -/
def Outcome.print (outcome : Outcome) : IO Unit := do
  for problem in outcome.problems do
    IO.eprintln (logLine problem)
  IO.print outcome.output
  (← IO.getStdout).flush
  if let some line := outcome.summary then
    IO.eprintln line
  match outcome.ending with
  | .halt .help => IO.print usage
  | .halt .version => return
  | .halt reason => IO.eprint (reason.message ++ "\n")
  | .failure cause => IO.eprintln (cause.code ++ "\n" ++ cause.message)
  | _ => return

end CommandLine

end DocPages

/-- Run the program with its arguments. -/
def main (arguments : List String) : IO UInt32 := do
  let allowsColor := (← IO.getEnv "NO_COLOR").isNone
  let outcome ← DocPages.CommandLine.run DocPages.CommandLine.disk allowsColor arguments
  outcome.print
  return outcome.exitCode.toUInt32
