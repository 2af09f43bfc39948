/-!
# Places in texts

Places are counted in characters from the start of a text. Lines and columns are counted from one.
-/

namespace AttributeTables

/-- The characters from `start` up to, but not including, `stop`. -/
structure Span where
  start : Nat
  stop : Nat
  deriving DecidableEq

/-- A line of a text, and a place on it. -/
structure Place where
  line : Nat
  column : Nat
  text : List Char
  deriving DecidableEq

/-- The place of a character, given by how many come before it. -/
def Place.of (position : Nat) (source : List Char) : Place :=
  let before := source.take position
  let start := (before.reverse.takeWhile (· != '\n')).reverse
  { line := before.count '\n' + 1
    column := start.length + 1
    text := start ++ (source.drop position).takeWhile (· != '\n') }

end AttributeTables
