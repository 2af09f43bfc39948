import AttributeTables.PropertyTable
import AttributeTables.Output.Options

/-!
# The rows of the property table
-/

namespace AttributeTables.Output

/-- The name of the generated table. -/
def tableName : String := "AttrPropTable"

/-- The name of a set of one tag in an expression. -/
def symbol (item : PropertySet) : String := "AttributeProperty::" ++ item.name

/-- The row of an attribute: its byte, or the tags in the order of their declaration. -/
def row (style : Style) (e : PropertyEntry) : String :=
  match style with
  | .numeric => toString e.flags.bits.toNat ++ ","
  | .symbolic =>
    "0" ++ String.join ((e.tags.flatMap PropertySet.items).map (" | " ++ symbol ·)) ++ ","

/-- The section of the property table. -/
def propertiesLines (style : Style) (t : PropertyTable) : List String :=
  Section.properties.opening ++
  ["static const uint8_t " ++ tableName ++ "[] = \x7b"] ++
  t.entries.map (row style) ++
  ["\x7d;", "#endif"]

end AttributeTables.Output
