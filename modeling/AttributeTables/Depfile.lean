import AttributeTables.Files.Path

/-!
# Dependency files

A dependency file holds one rule, as `make` reads it: a target and what it depends on.
-/

namespace AttributeTables.Depfile

/-- A space in a path is escaped by a backslash. -/
def escapeChar (c : Char) : List Char := if c == ' ' then ['\\', ' '] else [c]

/-- The path as a rule names it. -/
def escape (p : Path) : String := String.ofList (p.text.toList.flatMap escapeChar)

/-- The rule for a target. -/
def rule (target : Path) (dependencies : List Path) : String :=
  escape target ++ ":" ++ String.join (dependencies.map fun d => " " ++ escape d) ++ "\n"

end AttributeTables.Depfile
