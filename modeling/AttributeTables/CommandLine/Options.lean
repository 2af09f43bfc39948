import AttributeTables.Request

/-!
# Options of the command line

The program has two subcommands, and each level of the command line has options of its own. An
option is a long name after two dashes, or a letter after one.
-/

namespace AttributeTables.CommandLine

/-- Where on the command line an option stands. -/
inductive Scope where
  /-- Before the subcommand. -/
  | top
  | generate
  | list
  deriving DecidableEq

/-- The word on the command line. -/
def Scope.ofWord? : String → Option Scope
  | "gen-attrs" => some .generate
  | "print-records" => some .list
  | _ => none

/-- An option with a value. -/
inductive Setting where
  | input
  | output
  | style
  | depfile
  | config
  deriving DecidableEq

/-- An option without a value, given once at most. -/
inductive Flag where
  | noHeader
  | writeIfChanged
  | check
  deriving DecidableEq

/-- What an option is for. -/
inductive Meaning where
  | setting (s : Setting)
  | flag (f : Flag)
  /-- One more request to print more. -/
  | verbose
  | help
  | version
  deriving DecidableEq

/-- An option, under its long name and perhaps a letter. -/
structure Entry where
  long : String
  short : Option Char := none
  meaning : Meaning

/-- The options that are known in every scope. -/
def sharedEntries : List Entry :=
  [⟨"verbose", some 'v', .verbose⟩, ⟨"help", some 'h', .help⟩]

/-- The options that are known in a scope. -/
def Scope.entries : Scope → List Entry
  | .top => ⟨"version", some 'V', .version⟩ :: sharedEntries
  | .generate =>
    [⟨"input", some 'i', .setting .input⟩, ⟨"output", some 'o', .setting .output⟩,
      ⟨"property-style", none, .setting .style⟩, ⟨"no-header", none, .flag .noHeader⟩,
      ⟨"write-if-changed", none, .flag .writeIfChanged⟩, ⟨"check", none, .flag .check⟩,
      ⟨"depfile", some 'd', .setting .depfile⟩, ⟨"config", none, .setting .config⟩] ++ sharedEntries
  | .list => ⟨"input", some 'i', .setting .input⟩ :: sharedEntries

/-- The option with a long name. -/
def Scope.long? (s : Scope) (name : String) : Option Meaning :=
  (s.entries.find? (·.long == name)).map (·.meaning)

/-- The option with a letter. -/
def Scope.short? (s : Scope) (letter : Char) : Option Meaning :=
  (s.entries.find? (·.short == some letter)).map (·.meaning)

/-! ## Notices -/

/-- Why a command line is answered with a notice instead of being carried out. -/
inductive Notice where
  /-- The user asks for help. -/
  | help (scope : Option Scope)
  | version
  | nothingGiven
  | missingSubcommand
  | unknownSubcommand (word : String)
  | unknownArgument (word : String)
  | unexpectedValue (word : String)
  /-- Options exclude each other, or one is given twice. -/
  | conflict (option : String)
  | invalidValue (option : String)
  | missingArgument (option : String)
  deriving DecidableEq

/-- The long name of an option with a value. -/
def Setting.name : Setting → String
  | .input => "input"
  | .output => "output"
  | .style => "property-style"
  | .depfile => "depfile"
  | .config => "config"

/-- The long name of a flag. -/
def Flag.name : Flag → String
  | .noHeader => "no-header"
  | .writeIfChanged => "write-if-changed"
  | .check => "check"

end AttributeTables.CommandLine
