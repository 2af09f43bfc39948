import AttributeTables.Catalogue
import AttributeTables.Log

/-!
# Code assignment

Codes are 32-bit numbers. They are given out one after the other from 1 on, category by category.
Each category owns an inclusive range of codes, so that two comparisons decide to which category a
code belongs. A category without attributes owns an empty range, which ends one before it starts.
-/

namespace AttributeTables

/-- The code of an attribute. Zero stands for no attribute. -/
abbrev Code := UInt32

/-- The first code that is given out. -/
def firstCode : Code := 1

/-- An arithmetic step that leaves the 32-bit numbers. -/
inductive Overflow where
  | addition
  | subtraction
  deriving DecidableEq

/-- The text for the user. -/
def Overflow.message : Overflow → String
  | .addition => "attempt to add with overflow"
  | .subtraction => "attempt to subtract with overflow"

namespace Code

/-- The next code. The largest one has none. -/
def next (c : Code) : Except Overflow Code :=
  if c.toNat + 1 < UInt32.size then .ok (c + 1) else .error .addition

/-- The code before. Zero has none. -/
def previous (c : Code) : Except Overflow Code :=
  if c.toNat = 0 then .error .subtraction else .ok (c - 1)

end Code

/-! ## Ranges -/

/-- An inclusive range of codes. -/
structure CodeRange where
  first : Code
  last : Code
  deriving DecidableEq

namespace CodeRange

/-- The range ends before it starts. -/
def isEmpty (r : CodeRange) : Bool := r.last < r.first

/-- The code lies in the range. -/
def contains (r : CodeRange) (c : Code) : Bool := r.first ≤ c && c ≤ r.last

/-- The number of codes, computed in 32 bits from the code after the last one. -/
def size (r : CodeRange) : Except Overflow Nat :=
  match Code.next r.last with
  | .error overflow => .error overflow
  | .ok stop =>
    if stop < r.first then .error .subtraction else .ok (stop - r.first).toNat

end CodeRange

/-! ## Layouts -/

/-- An attribute with its code. -/
structure CodeEntry where
  name : String
  category : Category
  code : Code
  deriving DecidableEq

/-- The codes of a catalogue: the range of each category that bears codes, and the attributes, both
in code order. -/
structure Layout where
  ranges : List (Category × CodeRange)
  entries : List CodeEntry
  deriving DecidableEq

namespace Layout

/-- Numbers the attributes of one category from a code on, and gives the code after them. -/
def number (category : Category) : List Definition → Code → Except Overflow (List CodeEntry × Code)
  | [], code => .ok ([], code)
  | d :: ds, code => do
    let after ← Code.next code
    let (entries, stop) ← number category ds after
    return (⟨d.name, category, code⟩ :: entries, stop)

/-- Lays out the categories from a code on. -/
def assignFrom (k : Catalogue) : List Category → Code → Except Overflow Layout
  | [], _ => .ok ⟨[], []⟩
  | c :: cs, first => do
    let (entries, stop) ← number c (k.listed c) first
    let last ← Code.previous stop
    let rest ← assignFrom k cs stop
    return ⟨(c, ⟨first, last⟩) :: rest.ranges, entries ++ rest.entries⟩

/-- The codes of a catalogue. -/
def assign (k : Catalogue) : Except Overflow Layout :=
  assignFrom k Category.codeBearing firstCode

/-- The range of a category. Only categories that bear codes have one. -/
def range? (l : Layout) (c : Category) : Option CodeRange :=
  (l.ranges.find? (·.1 == c)).map (·.2)

/-- The code of the first attribute with the given name. -/
def codeOf? (l : Layout) (name : String) : Option Code :=
  (l.entries.find? (·.name == name)).map (·.code)

/-- The category that owns a code. -/
def categoryOf? (l : Layout) (c : Code) : Option Category :=
  (l.ranges.find? (·.2.contains c)).map (·.1)

/-- The number of codes that were given out. -/
def size (l : Layout) : Nat := l.entries.length

/-- What is reported when codes are assigned: the range of each category. -/
def records (l : Layout) : List Log.Record :=
  l.ranges.map fun (category, range) =>
    ⟨.debug, "hyattr::layout", "Category " ++ category.name ++ " assigned codes [" ++
      toString range.first.toNat ++ ", " ++ toString range.last.toNat ++ "]"⟩

end Layout

end AttributeTables
