/-!
# Association lists

Lists of keys with values. The first pair with a key counts.
-/

namespace AttributeTables

variable {α β γ : Type} [BEq α] [LawfulBEq α]

/-- Of the pairs with a key, all or none are left. -/
theorem lookup_filter_key (p : α → Bool) (l : List (α × β)) (k : α) :
    (l.filter fun e => p e.1).lookup k = if p k then l.lookup k else none := by
  induction l with
  | nil => simp
  | cons e l ih =>
    obtain ⟨j, b⟩ := e
    by_cases hk : k = j
    · subst hk
      by_cases hp : p k <;> simp [hp, ih]
    · have hb : (k == j) = false := by simp [hk]
      by_cases hp : p j <;> simp [hp, hb, ih, List.lookup_cons]

theorem lookup_map_value (f : β → γ) (l : List (α × β)) (k : α) :
    (l.map fun e => (e.1, f e.2)).lookup k = (l.lookup k).map f := by
  induction l with
  | nil => rfl
  | cons e l ih =>
    obtain ⟨j, b⟩ := e
    by_cases hk : k = j
    · simp [hk]
    · have hb : (k == j) = false := by simp [hk]
      simp [List.lookup_cons, hb, ih]

end AttributeTables
