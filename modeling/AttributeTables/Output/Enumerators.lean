import AttributeTables.Layout
import AttributeTables.Output.Options

/-!
# The enumerators

For each category that bears codes a first marker, an enumerator for each attribute, and a last
marker.
-/

namespace AttributeTables.Output

/-- An enumerator with its value. -/
def enumerator (name : String) (value : Code) : String :=
  name ++ " = " ++ toString value.toNat ++ ","

/-- The enumerator before the attributes of a category. -/
def firstMarker (c : Category) : String := "First" ++ c.name

/-- The enumerator after the attributes of a category. -/
def lastMarker (c : Category) : String := "Last" ++ c.name

/-- Writes the ranges in order, each with the entries at the front of the list that belong to its
category. -/
def bracketLines : List (Category × CodeRange) → List CodeEntry → List String
  | [], _ => []
  | (c, range) :: ranges, entries =>
    enumerator (firstMarker c) range.first ::
      (entries.takeWhile (·.category == c)).map (fun e => enumerator e.name e.code) ++
      enumerator (lastMarker c) range.last ::
      bracketLines ranges (entries.dropWhile (·.category == c))

/-- The section of the enumerators. -/
def enumeratorsLines (l : Layout) : List String :=
  Section.enumerators.opening ++ bracketLines l.ranges l.entries ++ ["#endif", ""]

end AttributeTables.Output
