/-!
# Identifiers of C

A letter or an underscore, then letters, digits and underscores, all of them ASCII.
-/

namespace AttributeTables.Text

/-- The character may start an identifier. -/
def isIdentifierStart (c : Char) : Bool := c.isAlpha || c == '_'

/-- The character may follow in an identifier. -/
def isIdentifierPart (c : Char) : Bool := c.isAlphanum || c == '_'

/-- The characters form an identifier. -/
def isIdentifierList : List Char → Bool
  | [] => false
  | c :: cs => isIdentifierStart c && cs.all isIdentifierPart

/-- The text is an identifier. -/
def isIdentifier (s : String) : Bool := isIdentifierList s.toList

end AttributeTables.Text
