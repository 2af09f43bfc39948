import Mathlib.Data.List.Nodup

/-!
# Searches with at most one hit

A search through a list gives the first hit. Where there cannot be two, it gives the hit.
-/

namespace AttributeTables

variable {α β : Type} {l : List α} {a : α}

theorem find?_eq_some_iff_of_unique {p : α → Bool}
    (hunique : ∀ x ∈ l, ∀ y ∈ l, p x = true → p y = true → x = y) :
    l.find? p = some a ↔ a ∈ l ∧ p a = true := by
  constructor
  · intro h
    exact ⟨List.mem_of_find?_eq_some h, List.find?_some h⟩
  · rintro ⟨ha, hp⟩
    cases hfind : l.find? p with
    | none => exact absurd hp (by simpa using List.find?_eq_none.mp hfind a ha)
    | some b =>
        rw [hunique b (List.mem_of_find?_eq_some hfind) a ha (List.find?_some hfind) hp]

/-- A search by a key that no two members share. -/
theorem find?_key_eq_some_iff [BEq β] [LawfulBEq β] {key : α → β} {k : β}
    (hkeys : (l.map key).Nodup) : l.find? (key · == k) = some a ↔ a ∈ l ∧ key a = k := by
  rw [find?_eq_some_iff_of_unique, beq_iff_eq]
  intro x hx y hy hxk hyk
  exact List.inj_on_of_nodup_map hkeys hx hy ((eq_of_beq hxk).trans (eq_of_beq hyk).symm)

end AttributeTables
