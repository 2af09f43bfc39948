import AttributeTables.Config
import AttributeTables.Request
import AttributeTables.Text.Quoted

/-!
# Settings of a generation

What a request and a configuration say together. The request has precedence.
-/

namespace AttributeTables

/-- What happens to an output that is there already. -/
inductive WriteMode where
  /-- It is replaced. -/
  | always
  /-- It is replaced if it changes. -/
  | ifChanged
  /-- It is only compared. -/
  | check
  deriving DecidableEq

/-- The name in reports. -/
def WriteMode.name : WriteMode → String
  | .always => "Always"
  | .ifChanged => "IfChanged"
  | .check => "Check"

/-- Everything that a generation needs to know. -/
structure Settings where
  input : Path
  output : Option Path
  depfile : Option Path
  mode : WriteMode
  emit : Output.Options
  deriving DecidableEq

namespace Settings

/-- Why there are no settings. -/
inductive Fault where
  | missingInput
  | depfileWithoutOutput
  | checkWithoutOutput
  deriving DecidableEq

/-- The text for the user. -/
def Fault.message : Fault → String
  | .missingInput =>
    "No input manifest given, either on the command line or in the configuration file"
  | .depfileWithoutOutput => "A dependency file can only be written together with an output file"
  | .checkWithoutOutput => "Check mode needs an output file to compare against"

/-- The mode that the request and the configuration ask for. -/
def modeOf (request : GenerationRequest) (config : Config) : WriteMode :=
  if request.check then .check
  else if request.writeIfChanged || config.writeIfChanged then .ifChanged
  else .always

/-- The options of the output. A source without a name is named after the input. -/
def emitOf (request : GenerationRequest) (config : Config) (input : Path) : Output.Options where
  style := request.style.getD config.emit.style
  header := config.emit.header && !request.noHeader
  sourceName := config.emit.sourceName <|> input.fileName?

/-- The settings for a request. -/
def resolve (request : GenerationRequest) (config : Config) : Except Fault Settings :=
  match request.input <|> config.input with
  | none => .error .missingInput
  | some input =>
    let output := request.output <|> config.output
    let depfile := request.depfile <|> config.depfile
    if depfile.isSome && output.isNone then .error .depfileWithoutOutput
    else if request.check && output.isNone then .error .checkWithoutOutput
    else .ok
      { input, output, depfile
        mode := modeOf request config
        emit := emitOf request config input }

/-! ## Reports -/

/-- A value that may be missing, as reports show it. -/
def describeOption (describe : α → String) : Option α → String
  | some a => "Some(" ++ describe a ++ ")"
  | none => "None"

/-- Named values, as reports show them. -/
def describeRecord (name : String) (fields : List (String × String)) : String :=
  name ++ " \x7b " ++ ", ".intercalate (fields.map fun (k, v) => k ++ ": " ++ v) ++ " \x7d"

/-- The options, as reports show them. -/
def describeOptions (o : Output.Options) : String :=
  describeRecord "EmitOptions"
    [("property_style", match o.style with
        | .numeric => "Numeric"
        | .symbolic => "Symbolic"),
     ("header", if o.header then "true" else "false"),
     ("source_name", describeOption Text.quoted o.sourceName)]

/-- The settings, as reports show them. -/
def describe (s : Settings) : String :=
  let path (p : Path) := Text.quoted p.text
  describeRecord "GenSettings"
    [("input", path s.input), ("output", describeOption path s.output),
     ("depfile", describeOption path s.depfile), ("mode", s.mode.name),
     ("emit", describeOptions s.emit)]

end Settings

end AttributeTables
