import AttributeTables.CommandLine.Options
import AttributeTables.Text.Lines

/-!
# Texts for the user of the command line
-/

namespace AttributeTables.CommandLine

/-- The name of the program. -/
def programName : String := "hyattr-tblgen"

/-- The name of the program with its version. -/
def versionText : String := programName ++ " 0.1.1\n"

/-- Help on the whole program. -/
def overview : String := Text.unlines
  ["Generate attribute tables from an attribute manifest",
   "",
   "Usage: " ++ programName ++ " [OPTIONS] <COMMAND>",
   "",
   "Commands:",
   "  gen-attrs      Generate attributes",
   "  print-records  Print all records of the manifest",
   "  help           Print this message or the help of the given subcommand(s)",
   "",
   "Options:",
   "  -v, --verbose...  Increase verbosity (-v info, -vv debug, -vvv trace)",
   "  -h, --help        Print help",
   "  -V, --version     Print version"]

/-- Help on the generation of tables. -/
def generateHelp : String := Text.unlines
  ["Generate attributes",
   "",
   "Usage: " ++ programName ++ " gen-attrs [OPTIONS]",
   "",
   "Options:",
   "  -i, --input <INPUT>",
   "          Attribute manifest",
   "  -v, --verbose...",
   "          Increase verbosity (-v info, -vv debug, -vvv trace)",
   "  -o, --output <OUTPUT>",
   "          Output file (stdout if absent)",
   "      --property-style <PROPERTY_STYLE>",
   "          Rendering of the property table entries [possible values: numeric, symbolic]",
   "      --no-header",
   "          Do not emit the \"do not edit\" banner",
   "      --write-if-changed",
   "          Only touch the output file if its content changes",
   "      --check",
   "          Fail if the output file is out of date instead of writing it",
   "  -d, --depfile <DEPFILE>",
   "          Write a make-style dependency file",
   "      --config <CONFIG>",
   "          Configuration file providing defaults for the flags above",
   "  -h, --help",
   "          Print help"]

/-- Help on the listing. -/
def listHelp : String := Text.unlines
  ["Print all records of the manifest",
   "",
   "Usage: " ++ programName ++ " print-records [OPTIONS] --input <INPUT>",
   "",
   "Options:",
   "  -i, --input <INPUT>  Attribute manifest",
   "  -v, --verbose...     Increase verbosity (-v info, -vv debug, -vvv trace)",
   "  -h, --help           Print help"]

/-- Help on a scope. -/
def helpText : Option Scope → String
  | some .generate => generateHelp
  | some .list => listHelp
  | some .top | none => overview

/-- An error in the command line, with a hint. -/
def usageError (message : String) : String :=
  Text.unlines ["error: " ++ message, "", "For more information, try '--help'."]

namespace Notice

/-- The text for the user. -/
def text : Notice → String
  | .help scope => helpText scope
  | .version => versionText
  | .nothingGiven => overview
  | .missingSubcommand => usageError "a subcommand is required but one was not provided"
  | .unknownSubcommand word => usageError ("unrecognized subcommand '" ++ word ++ "'")
  | .unknownArgument word => usageError ("unexpected argument '" ++ word ++ "' found")
  | .unexpectedValue word => usageError ("unexpected value in '" ++ word ++ "'")
  | .conflict option => usageError ("the argument '--" ++ option ++ "' cannot be used here")
  | .invalidValue option => usageError ("'--" ++ option ++ "' needs another value")
  | .missingArgument option => usageError ("the argument '--" ++ option ++ "' is required")

/-- The user asked for the text. -/
def isRequested : Notice → Bool
  | .help _ | .version => true
  | _ => false

/-- The exit code of a program that answers with the notice. -/
def exitCode (n : Notice) : Nat := if n.isRequested then 0 else 2

end Notice

end AttributeTables.CommandLine
