import AttributeTables.Property

/-!
# Attribute definitions and rules

What a catalogue lists: attributes, functions that compare two attribute sets, and functions that
merge them.
-/

namespace AttributeTables

/-- An attribute. -/
structure Definition where
  /-- The symbolic name, an enumerator in the generated text. -/
  name : String
  category : Category
  /-- The spelling of the attribute, a callback argument in the generated text. -/
  display : String
  /-- The declared tags in order, repetitions kept. -/
  properties : List PropertySet := []
  deriving DecidableEq

/-- All declared tags in one byte. -/
def Definition.mask (d : Definition) : PropertySet :=
  d.properties.foldl PropertySet.union PropertySet.empty

/-- A function to call when two attribute sets are compared. -/
structure CompatRule where
  function : String
  /-- A string to pass as the last argument. -/
  argument : Option String := none
  deriving DecidableEq

/-- A function to call when two attribute sets are merged. -/
structure MergeRule where
  function : String
  deriving DecidableEq

end AttributeTables
