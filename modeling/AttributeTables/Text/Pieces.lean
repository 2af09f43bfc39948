/-!
# Pieces

Texts cut at a separator. A separator at an end, or right after another one, leaves an empty piece.
-/

namespace AttributeTables.Text

/-- The texts before, between and after the separators. -/
def pieces (separator : Char) : List Char → List (List Char)
  | [] => [[]]
  | c :: cs =>
    if c == separator then [] :: pieces separator cs
    else
      match pieces separator cs with
      | first :: rest => (c :: first) :: rest
      | [] => [[c]]

/-- Joined by the separator, the pieces give the text back. -/
theorem intercalate_pieces (separator : Char) (cs : List Char) :
    [separator].intercalate (pieces separator cs) = cs := by
  induction cs with
  | nil => rfl
  | cons c cs ih =>
    simp only [pieces]
    split
    · rename_i h
      cases hp : pieces separator cs with
      | nil => exact absurd hp (by fun_cases pieces separator cs <;> simp_all)
      | cons p ps => simp_all [List.intercalate, List.intersperse]
    · cases hp : pieces separator cs with
      | nil => exact absurd hp (by fun_cases pieces separator cs <;> simp_all)
      | cons p ps => cases ps <;> simp_all [List.intercalate, List.intersperse]

theorem pieces_ne_nil (separator : Char) (cs : List Char) : pieces separator cs ≠ [] := by
  fun_cases pieces separator cs <;> simp

end AttributeTables.Text
