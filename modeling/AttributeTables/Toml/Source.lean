import AttributeTables.Toml.Excerpt
import AttributeTables.Toml.Reader
import AttributeTables.Toml.Record

/-!
# Records in source texts
-/

namespace AttributeTables.Toml

/-- Why a text does not hold a record. -/
inductive Defect where
  /-- The text is no TOML. -/
  | malformed
  | misfit (m : Misfit)
  deriving DecidableEq

/-- The text for the user. -/
def Defect.render (source : String) : Defect → String
  | .malformed => "TOML parse error\n"
  | .misfit m => m.render source

/-- Reads a record. A number that is not usable is a defect only in a text that does not fit
anyway: it then counts before the misfit. -/
def Schema.readSource (s : Schema ρ) (source : String) : Except Defect ρ :=
  match document? source with
  | none => .error .malformed
  | some document =>
    match s.read document.tree with
    | .ok record => .ok record
    | .error m => .error (if document.allUsable then .misfit m else .malformed)

end AttributeTables.Toml
