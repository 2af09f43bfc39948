import AttributeTables.Definition

/-!
# Catalogues

The input of every generated table: for each category the attributes listed under it, and the two
rule lists. Nothing is checked here, so an attribute may be listed under another category than its
own.
-/

namespace AttributeTables

/-- The attributes by category, and the rules, all in declaration order. -/
structure Catalogue where
  listed : Category → List Definition
  compatRules : List CompatRule
  mergeRules : List MergeRule

/-- The attributes that get codes, in code order. -/
def Catalogue.codeBearing (k : Catalogue) : List Definition :=
  Category.codeBearing.flatMap k.listed

end AttributeTables
