import AttributeTables.Category

/-!
# Property tags

The tags of an attribute are folded into one byte. Seven bits have a meaning; a byte may hold the
eighth one too, and then keeps it.
-/

namespace AttributeTables

/-- A tag with a meaning. -/
inductive Property where
  | fnAttr
  | paramAttr
  | retAttr
  /-- The attribute survives an intersection only if both sides agree exactly. -/
  | intersectPreserve
  /-- The attribute survives an intersection if both sides have it. -/
  | intersectAnd
  /-- An intersection keeps the smaller of both values. -/
  | intersectMin
  /-- The consumer has its own code for the intersection. -/
  | intersectCustom
  deriving DecidableEq

namespace Property

/-- Every tag, lowest bit first. -/
def all : List Property :=
  [.fnAttr, .paramAttr, .retAttr, .intersectPreserve, .intersectAnd, .intersectMin,
    .intersectCustom]

/-- The name a manifest and the generated table use. -/
def name : Property → String
  | .fnAttr => "FnAttr"
  | .paramAttr => "ParamAttr"
  | .retAttr => "RetAttr"
  | .intersectPreserve => "IntersectPreserve"
  | .intersectAnd => "IntersectAnd"
  | .intersectMin => "IntersectMin"
  | .intersectCustom => "IntersectCustom"

/-- The tag with the given name. -/
def ofName? (s : String) : Option Property := all.find? (·.name == s)

/-- The bit of the tag in the byte. -/
def bit : Property → UInt8
  | .fnAttr => 1
  | .paramAttr => 2
  | .retAttr => 4
  | .intersectPreserve => 8
  | .intersectAnd => 16
  | .intersectMin => 32
  | .intersectCustom => 64

/-- The only category that may carry the tag; most tags have none. -/
def requiredCategory? : Property → Option Category
  | .intersectAnd => some .enum
  | .intersectMin => some .int
  | _ => none

theorem ofName?_name (p : Property) : ofName? p.name = some p := by cases p <;> decide

end Property

/-! ## Sets of tags -/

/-- A byte of tags. -/
structure PropertySet where
  bits : UInt8
  deriving DecidableEq

namespace PropertySet

/-- No tag. -/
def empty : PropertySet := ⟨0⟩

/-- The tag alone. -/
def single (p : Property) : PropertySet := ⟨p.bit⟩

/-- The tags of either side. -/
def union (s t : PropertySet) : PropertySet := ⟨s.bits ||| t.bits⟩

/-- The tag is in the set. -/
def has (s : PropertySet) (p : Property) : Bool := s.bits &&& p.bit != 0

/-- The bit that no tag stands for. -/
def unknownBit : UInt8 := 128

/-- The set taken apart: its tags as sets of one, lowest bit first, then the bit without a meaning
if it is there. -/
def items (s : PropertySet) : List PropertySet :=
  (Property.all.filter s.has).map single ++
    if s.bits &&& unknownBit != 0 then [⟨unknownBit⟩] else []

/-- The tag, if the set holds exactly one and nothing else. -/
def property? (s : PropertySet) : Option Property := Property.all.find? (·.bit == s.bits)

/-- The name of a set of one tag. Every other set has a placeholder. -/
def name (s : PropertySet) : String :=
  if s == empty then "<none>" else
  match s.property? with
  | some p => p.name
  | none => "<multiple>"

/-- The names of the items, joined as in an expression; `0` for the empty set. -/
def text (s : PropertySet) : String :=
  if s == empty then "0" else " | ".intercalate (s.items.map name)

/-- The category that a set of one restricted tag asks for. -/
def requiredCategory? (s : PropertySet) : Option Category :=
  s.property?.bind Property.requiredCategory?

/-- A set of one tag may be attached to an attribute of the category. -/
def allowedOn (s : PropertySet) (c : Category) : Bool :=
  match s.requiredCategory? with
  | some required => required == c
  | none => true

/-- The set with the given name, of one tag. -/
def ofName? (s : String) : Option PropertySet := (Property.ofName? s).map single

@[simp] theorem property?_single (p : Property) : (single p).property? = some p := by
  cases p <;> decide

end PropertySet

end AttributeTables
