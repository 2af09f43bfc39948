import AttributeTables.Catalogue
import AttributeTables.Output.Options

/-!
# The name tables

One invocation of a callback for each attribute. Each group has a callback of its own, which falls
back to the common one if the consumer did not define it.
-/

namespace AttributeTables.Output

/-- The callback that receives what no other callback takes. -/
def fallbackCallback : String := "ATTRIBUTE_ALL"

/-- The invocation for an attribute. -/
def invocation (callback : String) (d : Definition) : String :=
  callback ++ "(" ++ d.name ++ "," ++ d.display ++ ")"

/-- The attributes of a group, category by category. -/
def groupMembers (k : Catalogue) (g : NameGroup) : List Definition := g.categories.flatMap k.listed

/-- The table of a group: its callback gets a default, is invoked, and is undefined again. -/
def groupLines (k : Catalogue) (g : NameGroup) : List String :=
  ["#ifndef " ++ g.callback,
    "#define " ++ g.callback ++ "(FIRST, SECOND) " ++ fallbackCallback ++ "(FIRST, SECOND)",
    "#endif", ""] ++
  (groupMembers k g).map (invocation g.callback) ++
  ["#undef " ++ g.callback, ""]

/-- The section of the name tables. -/
def namesLines (k : Catalogue) : List String :=
  Section.names.opening ++
  ["#ifndef " ++ fallbackCallback, "#define " ++ fallbackCallback ++ "(FIRST, SECOND)", "#endif",
    ""] ++
  NameGroup.all.flatMap (groupLines k) ++
  ["#undef " ++ fallbackCallback, "#endif", ""]

end AttributeTables.Output
