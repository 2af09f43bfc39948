import AttributeTables.Pattern.Expression

/-!
# The extent of expressions

The memory, in bytes, of a machine that looks for an expression. It has states, each for a byte of a
text or for a choice, and repeated parts are there as often as they have to be.
-/

namespace AttributeTables.Pattern

/-! ## Bytes of characters -/

/-- The ranges of code points that are written with the same number of bytes, with the number of
bytes after the first one. Code points between the last two but one are no characters. -/
def encodings : List ((Nat × Nat) × Nat) :=
  [((0, 0x7f), 0), ((0x80, 0x7ff), 1), ((0x800, 0xd7ff), 2), ((0xe000, 0xffff), 2),
    ((0x10000, 0x10ffff), 3)]

/-- The ways to write the numbers of a range with the given count of bytes after the first one, as
sequences of ranges. A byte after the first one has six bits. -/
def byteRanges : Nat → Nat → Nat → List (List (Nat × Nat))
  | 0, first, last => [[(first, last)]]
  | count + 1, first, last =>
    let unit := Nat.pow 64 (count + 1)
    let (low, lowRest) := (first / unit, first % unit)
    let (high, highRest) := (last / unit, last % unit)
    let under (lead : Nat × Nat) := List.map (lead :: ·)
    if low == high then under (low, low) (byteRanges count lowRest highRest)
    else
      let fromStart := lowRest == 0
      let toEnd := highRest == unit - 1
      let inner := (if fromStart then low else low + 1, if toEnd then high + 1 else high)
      (if fromStart then [] else under (low, low) (byteRanges count lowRest (unit - 1))) ++
        (if inner.1 < inner.2 then
          under (inner.1, inner.2 - 1) (byteRanges count 0 (unit - 1)) else []) ++
        (if toEnd then [] else under (high, high) (byteRanges count 0 highRest))

/-- The ways to write the characters of a set. The count of bytes comes first. -/
def CharSet.written (s : CharSet) : List (List (Nat × Nat)) :=
  s.normalize.ranges.flatMap fun range =>
    encodings.flatMap fun (within, count) =>
      (CharSet.shifted range within id).flatMap fun (first, last) =>
        (byteRanges count first last).map ((count, count) :: ·)

/-! ## Memory -/

/-- The memory of a state. -/
def stateSize : Nat := 32

/-- The memory of a choice between two states, besides its own state. -/
def choiceSize : Nat := 8

/-- The memory of a set of characters: a state for each byte of a single character, a state with
ranges for ASCII characters, and otherwise a tree of bytes. -/
def CharSet.extent (s : CharSet) : Nat :=
  match s.normalize.ranges with
  | [] => stateSize
  | [(first, last)] =>
    if first == last then stateSize * (Char.ofNat first).utf8Size
    else many s.written
  | _ => many s.written
where
  /-- The memory for several ways to write a character. -/
  many (ways : List (List (Nat × Nat))) : Nat :=
    if ways.all (·.length == 2) then 2 * stateSize + 8 * ways.length
    else
      let starts := ways.flatMap fun way =>
        (List.range way.length).map fun n => way.take (n + 1)
      let states := starts.eraseDups.filter (1 < ·.length)
      (2 + states.length) * stateSize + 4 * ways.length

/-- The memory of an expression. Nothing needs a state only where it stands alone. -/
def Expression.extent : Expression → Nat
  | .empty => 0
  | .chars s => s.extent
  | .look _ => stateSize
  | .capture e => 2 * stateSize + max stateSize e.extent
  | .seq a b => a.extent + b.extent
  | .alt a b => choiceSize + stateSize + max stateSize a.extent + max stateSize b.extent
  | .repeated e min max =>
    let one := Nat.max stateSize e.extent
    let choice := choiceSize + stateSize
    match max with
    | none =>
      Nat.max 1 min * one + choice + (if min == 0 && e.canStay then choice + stateSize else 0)
    | some max =>
      if min == max then min * one
      else Nat.max stateSize (min * one) + stateSize + (max - min) * (one + choice)

end AttributeTables.Pattern
