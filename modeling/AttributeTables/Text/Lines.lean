import AttributeTables.Text.Pieces

/-!
# Lines

Texts that are written line by line, each line ended by a newline.
-/

namespace AttributeTables.Text

/-- The lines one after the other, each with its newline. -/
def unlines (lines : List String) : String := String.join (lines.map (· ++ "\n"))

/-- The line without a carriage return at its end. -/
def dropReturn (line : List Char) : List Char :=
  if line.getLast? == some '\r' then line.dropLast else line

/-- The lines of a text. The newline of the last one may be missing. A carriage return before a
newline belongs to it. -/
def lines (cs : List Char) : List (List Char) :=
  let whole := pieces '\n' cs
  whole.dropLast.map dropReturn ++ whole.getLast?.toList.filter (!·.isEmpty)

/-- A run of spaces. -/
def spaces (n : Nat) : String := String.ofList (List.replicate n ' ')

@[simp] theorem unlines_nil : unlines [] = "" := rfl

theorem unlines_append (a b : List String) : unlines (a ++ b) = unlines a ++ unlines b := by
  simp [unlines, String.join_append]

end AttributeTables.Text
