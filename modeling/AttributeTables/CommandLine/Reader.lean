import AttributeTables.CommandLine.Options

/-!
# Reading the command line

Words are read from the left. An option that takes a value waits for it; the value is examined only
when the next option comes, or the end.
-/

namespace AttributeTables.CommandLine

/-- What was read. -/
structure Progress where
  settings : List (Setting × String) := []
  flags : List Flag := []
  verbosity : Nat := 0
  /-- An option whose value has not been examined; it may still have none. -/
  waiting : Option (Setting × Option String) := none

/-- Requests to print more are counted so far. -/
def maxVerbosity : Nat := 255

/-- The text can be the value of the option: a style by its name, or a path that is not empty. -/
def Setting.accepts : Setting → String → Bool
  | .style, value => (Output.Style.ofName? value).isSome
  | _, value => value != ""

namespace Progress

/-- The value of an option. -/
def setting? (p : Progress) (s : Setting) : Option String := p.settings.lookup s

/-- Examines a value and keeps it. -/
def keep (p : Progress) (s : Setting) (value : String) : Except Notice Progress :=
  if (p.setting? s).isSome then .error (.conflict s.name)
  else if s.accepts value then .ok { p with settings := p.settings ++ [(s, value)] }
  else .error (.invalidValue s.name)

/-- Examines the value of the waiting option. -/
def settle (p : Progress) : Except Notice Progress :=
  match p.waiting with
  | none => .ok p
  | some (s, none) => .error (.invalidValue s.name)
  | some (s, some value) => { p with waiting := none }.keep s value

/-- Takes an option without a value beside it. -/
def take (p : Progress) (scope : Scope) (m : Meaning) : Except Notice Progress := do
  let p ← p.settle
  match m with
  | .setting s => .ok { p with waiting := some (s, none) }
  | .flag f =>
    if p.flags.contains f then .error (.conflict f.name) else .ok { p with flags := f :: p.flags }
  | .verbose => .ok { p with verbosity := min (p.verbosity + 1) maxVerbosity }
  | .help => .error (.help (if scope == .top then none else some scope))
  | .version => .error .version

/-- Takes an option with a value in the same word. -/
def takeWith (p : Progress) (word value : String) : Meaning → Except Notice Progress
  | .setting s => do (← p.settle).keep s value
  | _ => .error (.unexpectedValue word)

/-- Reads a word after two dashes: a name, perhaps an equals sign and a value. -/
def long (p : Progress) (scope : Scope) (word : String) (cs : List Char) :
    Except Notice Progress :=
  let (name, rest) := cs.span (· != '=')
  match scope.long? (String.ofList name), rest with
  | none, _ => .error (.unknownArgument word)
  | some m, [] => p.take scope m
  | some m, _ :: value => p.takeWith word (String.ofList value) m

/-- Reads a word after one dash: letters, the last one perhaps with a value. -/
def short (p : Progress) (scope : Scope) (word : String) : List Char → Except Notice Progress
  | [] => .ok p
  | c :: cs =>
    match scope.short? c, cs with
    | none, _ => .error (.unknownArgument word)
    | some (.setting s), [] => p.take scope (.setting s)
    | some (.setting s), '=' :: value => p.takeWith word (String.ofList value) (.setting s)
    | some (.setting s), value => p.takeWith word (String.ofList value) (.setting s)
    | some m, _ => do (← p.take scope m).short scope word cs

/-- Reads a word with a dash at its start that is more than a dash, or is `none` if it has none. -/
def option? (p : Progress) (scope : Scope) (word : String) : Option (Except Notice Progress) :=
  match word.toList with
  | '-' :: '-' :: cs => some (p.long scope word cs)
  | '-' :: c :: cs => some (p.short scope word (c :: cs))
  | _ => none

/-- Reads the words after a subcommand. -/
def words (p : Progress) (scope : Scope) : List String → Except Notice Progress
  | [] => p.settle
  | word :: rest =>
    if word == "--" then
      match rest with
      | [] => p.settle
      | next :: _ => .error (.unknownArgument next)
    else
      match p.option? scope word with
      | some result => do (← result).words scope rest
      | none =>
        match p.waiting with
        | some (s, none) => { p with waiting := some (s, some word) }.words scope rest
        | _ => .error (.unknownArgument word)

/-! ## Requests -/

/-- The path that an option gives. -/
def path? (p : Progress) (s : Setting) : Option Path := (p.setting? s).map Path.mk

/-- The request for a generation. -/
def generation (p : Progress) : Except Notice Command :=
  if p.flags.contains .check && p.flags.contains .writeIfChanged then
    .error (.conflict Flag.check.name)
  else
    .ok <| .generate
      { input := p.path? .input
        output := p.path? .output
        style := (p.setting? .style).bind Output.Style.ofName?
        noHeader := p.flags.contains .noHeader
        writeIfChanged := p.flags.contains .writeIfChanged
        check := p.flags.contains .check
        depfile := p.path? .depfile
        config := p.path? .config }

/-- What to do, after a subcommand. -/
def command (p : Progress) : Scope → Except Notice Command
  | .generate => p.generation
  | .list =>
    match p.path? .input with
    | some input => .ok (.list input)
    | none => .error (.missingArgument Setting.input.name)
  | .top => .error .missingSubcommand

end Progress

/-- The notice for the words after `help`: one subcommand at most. -/
def helpNotice : List String → Notice
  | [] => .help none
  | word :: rest =>
    match Scope.ofWord? word, rest with
    | some scope, [] => .help (some scope)
    | some _, next :: _ => .unknownSubcommand next
    | none, [] => if word == "help" then .help none else .unknownSubcommand word
    | none, next :: _ => .unknownSubcommand (if word == "help" then next else word)

/-- The word names a subcommand. -/
def isSubcommand (word : String) : Bool := word == "help" || (Scope.ofWord? word).isSome

/-- Reads a subcommand with its words. A count of requests to print more after the subcommand
replaces the one before it. -/
def readSubcommand (before : Progress) (scope : Scope) (rest : List String) :
    Except Notice Request := do
  let p ← Progress.words {} scope rest
  let command ← p.command scope
  return ⟨if p.verbosity == 0 then before.verbosity else p.verbosity, command⟩

/-- Reads the words from the start. -/
def readFrom (p : Progress) : List String → Except Notice Request
  | [] => .error (if p.verbosity == 0 then .nothingGiven else .missingSubcommand)
  | word :: rest =>
    if word == "help" then .error (helpNotice rest)
    else
      match Scope.ofWord? word with
      | some scope => readSubcommand p scope rest
      | none =>
        if word == "--" then
          match rest with
          | [] => .error (if p.verbosity == 0 then .nothingGiven else .missingSubcommand)
          | next :: _ =>
            .error (if isSubcommand next then .unknownArgument next else .unknownSubcommand next)
        else
          match p.option? .top word with
          | some result => do readFrom (← result) rest
          | none => .error (.unknownSubcommand word)

/-- The request that a command line makes. -/
def read (words : List String) : Except Notice Request := readFrom {} words

end AttributeTables.CommandLine
