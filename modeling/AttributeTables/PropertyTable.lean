import AttributeTables.Layout

/-!
# The property table

One byte of tags for each attribute with a code, in code order. A tag that is restricted to a
category must not be attached to an attribute of another one; then there is no table.
-/

namespace AttributeTables

/-- The properties of one attribute. -/
structure PropertyEntry where
  name : String
  category : Category
  /-- The declared tags in order. -/
  tags : List PropertySet
  /-- All of them in one byte. -/
  flags : PropertySet
  deriving DecidableEq

/-- A restricted tag on an attribute of another category. -/
structure Conflict where
  name : String
  property : PropertySet
  required : Category
  found : Category
  deriving DecidableEq

/-- The text for the user. -/
def Conflict.message (c : Conflict) : String :=
  "'" ++ c.property.text ++ "' only compatible with '" ++ c.required.name ++ "'. Attribute `" ++
    c.name ++ "` is declared as '" ++ c.found.name ++ "'."

/-- The property bytes of a catalogue in code order. -/
structure PropertyTable where
  entries : List PropertyEntry
  deriving DecidableEq

namespace PropertyTable

/-- The conflict of a set of one tag with its attribute. -/
def conflictOf (d : Definition) (item : PropertySet) : Option Conflict :=
  match item.requiredCategory? with
  | some required => if required == d.category then none else some ⟨d.name, item, required, d.category⟩
  | none => none

/-- Adds tags of an attribute to a byte, one after the other. The first conflict ends it: in the
first tag that has one, the lowest bit. -/
def addTags (d : Definition) (flags : PropertySet) : List PropertySet → Except Conflict PropertySet
  | [] => .ok flags
  | tag :: tags =>
    match tag.items.findSome? (conflictOf d) with
    | some conflict => .error conflict
    | none => addTags d (flags.union tag) tags

/-- The entry of an attribute. -/
def entryOf (d : Definition) : Except Conflict PropertyEntry := do
  let flags ← addTags d PropertySet.empty d.properties
  return ⟨d.name, d.category, d.properties, flags⟩

/-- The entries of a list of attributes, or the first conflict. -/
def entriesOf : List Definition → Except Conflict (List PropertyEntry)
  | [] => .ok []
  | d :: ds => do
    let entry ← entryOf d
    let rest ← entriesOf ds
    return entry :: rest

/-- The property table of a catalogue. -/
def build (k : Catalogue) : Except Conflict PropertyTable :=
  (entriesOf k.codeBearing).map PropertyTable.mk

/-- The properties of the attribute with the given code. -/
def get? (t : PropertyTable) (c : Code) : Option PropertySet :=
  if c < firstCode then none else t.entries[(c - firstCode).toNat]?.map (·.flags)

/-- The number of entries. -/
def size (t : PropertyTable) : Nat := t.entries.length

/-- What is reported when a table is built. -/
def records (t : PropertyTable) : List Log.Record :=
  [⟨.debug, "hyattr::emit::props", "Property table holds " ++ toString t.size ++ " entries"⟩]

end PropertyTable

end AttributeTables
