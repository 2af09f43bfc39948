import AttributeTables.CommandLine.Help
import AttributeTables.CommandLine.Reader
import AttributeTables.Publication
import AttributeTables.Registry.Listing

/-!
# The program
-/

namespace AttributeTables

variable {m : Type → Type} [Monad m] [Host m]

/-- The registry of the manifest in a file. -/
def loadManifest (path : Path) : Task m Registry := do
  match ← Host.readText path with
  | .error fault => throw (.input fault)
  | .ok source =>
    Host.reportAll (Manifest.loadRecords path.text source)
    match Manifest.load path.text source with
    | .ok registry => return registry
    | .error f => throw (.manifest f)

/-- The configuration in a file, with its paths as seen from outside. -/
def loadConfig (path : Path) : Task m Config := do
  match ← Host.readText path with
  | .error fault => throw (.unreadable path fault)
  | .ok source =>
    match Config.parse path.text source with
    | .error f => throw (.config f)
    | .ok config =>
      Host.report
        ⟨.debug, "hyattr_tblgen::config", "Loaded configuration from '" ++ path.text ++ "'"⟩
      return config.relativeTo (path.parent?.getD ⟨""⟩)

/-- The configuration that a request names; without one, all defaults are the program's own. -/
def configOf (request : GenerationRequest) : Task m Config :=
  match request.config with
  | some path => loadConfig path
  | none => return {}

/-- The settings for a request. -/
def settingsOf (request : GenerationRequest) (config : Config) : Task m Settings :=
  match Settings.resolve request config with
  | .ok settings => return settings
  | .error f => throw (.settings f)

/-- Generates the tables. The dependency file is written after the output, and not if the output is
only compared. -/
def generateTables (settings : Settings) : Task m Published := do
  let registry ← loadManifest settings.input
  Host.reportAll (Output.generationRecords registry.catalogue settings.emit)
  match Output.generate registry.catalogue settings.emit with
  | .error f => throw (.output f)
  | .ok text =>
    let published ← publish settings.output text settings.mode
    match settings.depfile, settings.output with
    | some depfile, some output =>
      if settings.mode != .check then writeDepfile depfile output [settings.input]
      return published
    | _, _ => return published

/-- Carries out a command. -/
def carryOut : Command → Task m Unit
  | .generate request => do
    let config ← configOf request
    let settings ← settingsOf request config
    Host.report ⟨.debug, "hyattr_tblgen", "Resolved settings: " ++ settings.describe⟩
    let _ ← generateTables settings
  | .list input => do
    let registry ← loadManifest input
    match ← Host.print registry.listing with
    | .error fault => throw (.unlisted fault)
    | .ok () => return ()

/-- Sets up which records are printed: as many as the request asks for, unless the environment asks
for others. -/
def setUpFilter (verbosity : Nat) (environment : Option String) : m Unit := do
  let base : Log.Filter := { fallback := Log.Threshold.ofVerbosity verbosity }
  let (filter, warnings) := base.extend (environment.getD "")
  Host.printErrors (warnings.map (· ++ "\n"))
  Host.setFilter filter

/-- Runs the program to its end and gives its exit code. A failure is held until the end, and with
it the temporary file that it has left over. Nobody looks at whether a notice can be printed. -/
def runProgram (words : List String) (environment : Option String) : m Nat := do
  match CommandLine.read words with
  | .error notice =>
    if notice.isRequested then
      let _ ← Host.print notice.text
    else Host.printError notice.text
    return notice.exitCode
  | .ok request =>
    setUpFilter request.verbosity environment
    match ← (carryOut request.command).run with
    | .ok () => return 0
    | .error f =>
      Host.printError f.report
      return f.exitCode

end AttributeTables
