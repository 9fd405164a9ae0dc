import DocPages.CommandLine.Arguments

/-!
# Usage

What the program says about its own command line.
-/

namespace DocPages

namespace CommandLine

/-- The help on the command line. -/
def usage : String :=
  String.intercalate "\n" [
    "Turn a merged multiplatform declaration model into documentation pages.",
    "",
    "Usage: pagetree [OPTIONS] [COMMAND]",
    "",
    "Commands:",
    "  generate  Generate the page tree for a module and print it",
    "  help      Print this message",
    "",
    "Options:",
    "  -v, --verbose   Enable verbose output",
    "      --no-color  Disable colored output",
    "  -h, --help      Print help",
    "  -V, --version   Print version",
    "",
    "Options of generate:",
    "  -i, --input <INPUT>                 Path to the JSON encoded module",
    "  -c, --config <CONFIG>               Path to a config file",
    "      --format <FORMAT>               How the page tree is printed: outline or markdown",
    "      --merge-implicit-expect-actual  Merge clashing declarations into one page",
    "      --separate-inherited-members    Give inherited members their own sections",
    "      --all-types                     Add an \"All Types\" page under the module",
    "      --fail-on-errors                Exit with status 1 when any error was logged",
    ""]

/-- Why a command line is not run, for its user. -/
def Halt.message : Halt → String
  | .help => usage
  | .version => ""
  | .unknownCommand => "error: unrecognized subcommand"
  | .unknownArgument => "error: unexpected argument found"
  | .missingArgument => "error: the following required arguments were not provided: --input <INPUT>"
  | .repeatedArgument => "error: an argument cannot be used multiple times"
  | .invalidValue => "error: a value is missing or invalid for an option"
  | .superfluousValue => "error: unexpected value for a flag found"

end CommandLine

end DocPages
