import AttributeTables.Text.Printable

/-!
# Sets of characters
-/

namespace AttributeTables.Pattern

/-- A set of characters: those in one of some inclusive ranges of code points. -/
structure CharSet where
  ranges : List (Nat × Nat)
  deriving DecidableEq

namespace CharSet

/-- The character is in the set. -/
def contains (s : CharSet) (c : Char) : Bool := Text.inRanges c.toNat s.ranges

/-- The largest code point. -/
def maxCode : Nat := 0x10ffff

/-- Every character. -/
def all : CharSet := ⟨[(0, maxCode)]⟩

/-- No character. -/
def empty : CharSet := ⟨[]⟩

/-- One character. -/
def singleton (c : Char) : CharSet := ⟨[(c.toNat, c.toNat)]⟩

/-- Both sets together. -/
def union (s t : CharSet) : CharSet := ⟨s.ranges ++ t.ranges⟩

/-- Joins a range with those after it that it overlaps or touches, and goes on. The ranges are in
the order of their starts. -/
def join (range : Nat × Nat) : List (Nat × Nat) → List (Nat × Nat)
  | [] => [range]
  | next :: rest =>
    if next.1 ≤ range.2 + 1 then join (range.1, max range.2 next.2) rest
    else range :: join next rest

/-- The set by ranges in increasing order with gaps between them. -/
def normalize (s : CharSet) : CharSet :=
  match s.ranges.mergeSort fun a b => a.1 ≤ b.1 with
  | [] => ⟨[]⟩
  | first :: rest => ⟨join first rest⟩

/-- The gaps from a code point on between ranges in increasing order. -/
def gaps : Nat → List (Nat × Nat) → List (Nat × Nat)
  | start, [] => if start ≤ maxCode then [(start, maxCode)] else []
  | start, (first, last) :: rest =>
    if start < first then (start, first - 1) :: gaps (last + 1) rest else gaps (last + 1) rest

/-- The characters that are not in the set. -/
def complement (s : CharSet) : CharSet := ⟨gaps 0 s.normalize.ranges⟩

/-- The characters in both sets. -/
def inter (s t : CharSet) : CharSet := (s.complement.union t.complement).complement

/-- The characters in the first set only. -/
def diff (s t : CharSet) : CharSet := s.inter t.complement

/-- The characters in exactly one of the sets. -/
def symmDiff (s t : CharSet) : CharSet := (s.diff t).union (t.diff s)

/-- The code points of a range that are in another one, moved by a distance. -/
def shifted (range within : Nat × Nat) (distance : Nat → Nat) : List (Nat × Nat) :=
  let first := max range.1 within.1
  let last := min range.2 within.2
  if first ≤ last then [(distance first, distance last)] else []

/-- The set with the capital letters of its small ASCII letters, and the other way round. -/
def withBothCases (s : CharSet) : CharSet :=
  ⟨s.ranges ++
    s.ranges.flatMap (fun range => shifted range (0x61, 0x7a) (· - 0x20)) ++
    s.ranges.flatMap (fun range => shifted range (0x41, 0x5a) (· + 0x20))⟩

@[simp] theorem contains_empty (c : Char) : empty.contains c = false := rfl

@[simp] theorem contains_singleton (a c : Char) : (singleton a).contains c = (c == a) := by
  rw [Bool.eq_iff_iff]
  simp [contains, singleton, Text.inRanges, Char.ext_iff, ← UInt32.toNat_inj]
  omega

@[simp] theorem contains_union (s t : CharSet) (c : Char) :
    (s.union t).contains c = (s.contains c || t.contains c) := by
  simp [contains, union, Text.inRanges]

end CharSet

end AttributeTables.Pattern
