import AttributeTables.Registry
import AttributeTables.Text.Lines

/-!
# The listing of a registry

All that a registry holds, for people to read: a heading for each category and each kind of rule,
and a line for each entry.
-/

namespace AttributeTables

namespace Listing

/-- A heading with the number of the entries under it. -/
def heading (title : String) (count : Nat) : String :=
  "------------- " ++ title ++ " (" ++ toString count ++ ") -------------"

/-- The line of an attribute. -/
def definitionLine (d : Definition) : String :=
  "def " ++ d.name ++ " \x7b display = " ++ Text.quoted d.display ++ ", properties = " ++
    d.mask.text ++ " \x7d"

/-- The line of a rule. -/
def compatLine (rule : CompatRule) : String :=
  match rule.argument with
  | some argument => "compat " ++ rule.function ++ " " ++ Text.quoted argument
  | none => "compat " ++ rule.function

/-- The line of a rule. -/
def mergeLine (rule : MergeRule) : String := "merge " ++ rule.function

end Listing

namespace Registry

/-- The attributes of a category under their heading. -/
def categoryLines (r : Registry) (c : Category) : List String :=
  Listing.heading c.name (r.listed c).length :: (r.listed c).map Listing.definitionLine

/-- The lines of the listing. -/
def listingLines (r : Registry) : List String :=
  Category.all.flatMap r.categoryLines ++
  (Listing.heading "CompatRule" r.compatRules.length :: r.compatRules.map Listing.compatLine) ++
  (Listing.heading "MergeRule" r.mergeRules.length :: r.mergeRules.map Listing.mergeLine)

/-- The listing. -/
def listing (r : Registry) : String := Text.unlines r.listingLines

end Registry

end AttributeTables
