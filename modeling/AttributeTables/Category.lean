/-!
# Attribute categories

Every attribute belongs to one category. The category decides whether the attribute gets a code,
and under which group of the name table it is listed.
-/

namespace AttributeTables

/-- What kind of value an attribute carries. -/
inductive Category where
  /-- No value, as in `noreturn`. -/
  | enum
  /-- A type, as in `byval(<ty>)`. -/
  | type
  /-- An integer, as in `align(<n>)`. -/
  | int
  /-- One range of constants. -/
  | constantRange
  /-- A list of ranges of constants. -/
  | constantRangeList
  /-- A string that is read as a boolean. -/
  | strBool
  /-- A string with a structure of its own. -/
  | complexStr
  deriving DecidableEq

namespace Category

/-- Every category, in declaration order. -/
def all : List Category :=
  [.enum, .type, .int, .constantRange, .constantRangeList, .strBool, .complexStr]

/-- The categories whose attributes get codes, in the order in which the codes are given out. -/
def codeBearing : List Category :=
  [.enum, .type, .int, .constantRange, .constantRangeList]

/-- The name a manifest and the generated markers use. -/
def name : Category → String
  | .enum => "EnumAttr"
  | .type => "TypeAttr"
  | .int => "IntAttr"
  | .constantRange => "ConstantRangeAttr"
  | .constantRangeList => "ConstantRangeListAttr"
  | .strBool => "StrBoolAttr"
  | .complexStr => "ComplexStrAttr"

/-- The category with the given name. -/
def ofName? (s : String) : Option Category := all.find? (·.name == s)

/-- Attributes of the category get codes. -/
def bearsCode : Category → Bool
  | .strBool | .complexStr => false
  | _ => true

/-- The place in declaration order, from zero. -/
def position (c : Category) : Nat := all.idxOf c

end Category

/-! ## Groups of the name table -/

/-- A group of the name table. Each group has a callback of its own. -/
inductive NameGroup where
  /-- Every category that bears codes. -/
  | coded
  | strBool
  | complexStr
  deriving DecidableEq

namespace NameGroup

/-- Every group, in the order of the name table. -/
def all : List NameGroup := [.coded, .strBool, .complexStr]

/-- The callback that is invoked once for each attribute of the group. -/
def callback : NameGroup → String
  | .coded => "ATTRIBUTE_ENUM"
  | .strBool => "ATTRIBUTE_STRBOOL"
  | .complexStr => "ATTRIBUTE_COMPLEXSTR"

/-- The categories listed in the group, in order. -/
def categories : NameGroup → List Category
  | .coded => Category.codeBearing
  | .strBool => [.strBool]
  | .complexStr => [.complexStr]

end NameGroup

/-- The group a category is listed in. -/
def Category.group : Category → NameGroup
  | .strBool => .strBool
  | .complexStr => .complexStr
  | _ => .coded

namespace Category

@[simp] theorem mem_all (c : Category) : c ∈ all := by cases c <;> decide

@[simp] theorem mem_codeBearing (c : Category) : c ∈ codeBearing ↔ c.bearsCode = true := by
  cases c <;> decide

theorem mem_categories_group (c : Category) : c ∈ c.group.categories := by cases c <;> decide

theorem ofName?_name (c : Category) : ofName? c.name = some c := by cases c <;> decide

end Category

end AttributeTables
