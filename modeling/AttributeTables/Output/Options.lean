/-!
# Options of the output
-/

namespace AttributeTables.Output

/-- How the rows of the property table are written. -/
inductive Style where
  /-- The byte as a decimal number. -/
  | numeric
  /-- The tags by their names, joined as in an expression. -/
  | symbolic
  deriving DecidableEq

/-- The name in configurations and on the command line. -/
def Style.name : Style → String
  | .numeric => "numeric"
  | .symbolic => "symbolic"

/-- Every style. -/
def Style.all : List Style := [.numeric, .symbolic]

/-- The style with the given name. -/
def Style.ofName? (s : String) : Option Style := Style.all.find? (·.name == s)

/-- What the user may choose about the generated text. -/
structure Options where
  style : Style := .numeric
  /-- The text starts with a banner. -/
  header : Bool := true
  /-- The name of the input, for the banner. -/
  sourceName : Option String := none
  deriving DecidableEq

/-! ## Sections -/

/-- A part of the generated text. -/
inductive Section where
  /-- The name tables. -/
  | names
  /-- The enumerators with their codes. -/
  | enumerators
  /-- The functions that compare and merge attribute sets. -/
  | functions
  /-- The property table. -/
  | properties
  deriving DecidableEq

namespace Section

/-- Every section, in the order of the text. -/
def all : List Section := [.names, .enumerators, .functions, .properties]

/-- The symbol a consumer defines to include the section. -/
def toggle : Section → String
  | .names => "GET_ATTR_NAMES"
  | .enumerators => "GET_ATTR_ENUM"
  | .functions => "GET_ATTR_COMPAT_FUNC"
  | .properties => "GET_ATTR_PROP_TABLE"

/-- The lines that open the section. The symbol is undefined at once, so that the consumer can
include the text again for another section. -/
def opening (s : Section) : List String := ["#ifdef " ++ s.toggle, "#undef " ++ s.toggle]

end Section

end AttributeTables.Output
