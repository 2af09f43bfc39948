import AttributeTables.Files.Path
import AttributeTables.Output.Options
import AttributeTables.Toml.Source

/-!
# Configurations

A configuration gives defaults for a generation. It is written in TOML, and its relative paths are
meant from the directory that it is in.
-/

namespace AttributeTables

/-- The defaults for a generation. -/
structure Config where
  input : Option Path := none
  output : Option Path := none
  depfile : Option Path := none
  /-- An output that would not change is left alone. -/
  writeIfChanged : Bool := false
  emit : Output.Options := {}
  deriving DecidableEq

/-! ## Schemas -/

/-- How options of the output are written. -/
def Output.Options.schema : Toml.Schema Output.Options where
  name := "struct EmitOptions"
  fields :=
    [{ name := "property_style", keys := ["property_style"]
       put := fun t o =>
        return { o with style := ← Toml.readChoice (Style.all.map fun s => (s.name, s)) t } },
     { name := "header", keys := ["header"]
       put := fun t o => return { o with header := ← Toml.readBoolean t } },
     { name := "source_name", keys := ["source_name"]
       put := fun t o => return { o with sourceName := some (← Toml.readString t) } }]
  blank := {}

namespace Config

/-- A path in a configuration. -/
def readPath (t : Toml.Tree) : Toml.Fitting Path := return ⟨← Toml.readText "path string" t⟩

/-- How a configuration is written. -/
def schema : Toml.Schema Config where
  name := "configuration"
  fields :=
    [{ name := "input", keys := ["input"]
       put := fun t c => return { c with input := some (← readPath t) } },
     { name := "output", keys := ["output"]
       put := fun t c => return { c with output := some (← readPath t) } },
     { name := "depfile", keys := ["depfile"]
       put := fun t c => return { c with depfile := some (← readPath t) } },
     { name := "write_if_changed", keys := ["write_if_changed"]
       put := fun t c => return { c with writeIfChanged := ← Toml.readBoolean t } },
     { name := "emit", keys := ["emit"]
       put := fun t c => return { c with emit := ← Output.Options.schema.read t } }]
  blank := {}

/-! ## Source texts -/

/-- A text that is no configuration. -/
structure Failure where
  file : String
  source : String
  defect : Toml.Defect
  deriving DecidableEq

/-- The text for the user. -/
def Failure.message (f : Failure) : String :=
  "Failed to parse configuration file '" ++ f.file ++ "': " ++ f.defect.render f.source

/-- The configuration in the given file. -/
def parse (file source : String) : Except Failure Config :=
  (schema.readSource source).mapError (⟨file, source, ·⟩)

/-- The configuration with its relative paths seen from a directory. -/
def relativeTo (c : Config) (base : Path) : Config :=
  { c with
    input := c.input.map base.join
    output := c.output.map base.join
    depfile := c.depfile.map base.join }

end Config

end AttributeTables
