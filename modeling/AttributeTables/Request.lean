import AttributeTables.Files.Path
import AttributeTables.Output.Options

/-!
# Requests

What a user asks of the program.
-/

namespace AttributeTables

/-- A request for a generation. What it leaves open may come from a configuration. -/
structure GenerationRequest where
  input : Option Path := none
  output : Option Path := none
  style : Option Output.Style := none
  noHeader : Bool := false
  writeIfChanged : Bool := false
  check : Bool := false
  depfile : Option Path := none
  /-- The file with the configuration. -/
  config : Option Path := none
  deriving DecidableEq

/-- What to do. -/
inductive Command where
  | generate (request : GenerationRequest)
  /-- Prints the listing of a manifest. -/
  | list (input : Path)
  deriving DecidableEq

/-- What to do, and how much to report. -/
structure Request where
  verbosity : Nat
  command : Command
  deriving DecidableEq

end AttributeTables
