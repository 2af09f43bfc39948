import Mathlib.Data.List.Forall2

/-!
# Traversals that may fail

A traversal of a list ends with the first failure. What came before it went well, and what comes after
it does not count.
-/

namespace AttributeTables

variable {ε ε' α β : Type}

theorem bind_eq_ok_iff {x : Except ε α} {f : α → Except ε β} {b : β} :
    x >>= f = .ok b ↔ ∃ a, x = .ok a ∧ f a = .ok b := by
  cases x with
  | error e => exact iff_of_false nofun nofun
  | ok a =>
      constructor
      · exact fun h => ⟨a, rfl, h⟩
      · rintro ⟨a', ha, h⟩
        cases ha
        exact h

theorem bind_eq_error_iff {x : Except ε α} {f : α → Except ε β} {e : ε} :
    x >>= f = .error e ↔ x = .error e ∨ ∃ a, x = .ok a ∧ f a = .error e := by
  cases x with
  | error e' =>
      constructor
      · exact fun h => .inl (congrArg Except.error (Except.error.inj h))
      · rintro (h | ⟨a, h, -⟩)
        · cases h
          rfl
        · cases h
  | ok a =>
      constructor
      · exact fun h => .inr ⟨a, rfl, h⟩
      · rintro (h | ⟨a', ha, h⟩)
        · cases h
        · cases ha
          exact h

theorem mapError_eq_ok_iff {x : Except ε α} {g : ε → ε'} {a : α} :
    x.mapError g = .ok a ↔ x = .ok a := by
  cases x <;> simp [Except.mapError]

theorem mapError_eq_error_iff {x : Except ε α} {g : ε → ε'} {e' : ε'} :
    x.mapError g = .error e' ↔ ∃ e, x = .error e ∧ g e = e' := by
  cases x <;> simp [Except.mapError]

theorem toOption_bind (x : Except ε α) (f : α → Except ε β) :
    (x >>= f).toOption = x.toOption.bind fun a => (f a).toOption := by
  cases x <;> rfl

theorem toOption_mapM (f : α → Except ε β) (xs : List α) :
    (xs.mapM f).toOption = xs.mapM fun x => (f x).toOption := by
  induction xs with
  | nil => rfl
  | cons x xs ih =>
      simp only [List.mapM_cons, toOption_bind, ih]
      rfl

theorem isSome_mapM (f : α → Option β) (xs : List α) :
    (xs.mapM f).isSome = true ↔ ∀ x ∈ xs, (f x).isSome = true := by
  induction xs with
  | nil => simp
  | cons x xs ih =>
      rw [List.mapM_cons, List.forall_mem_cons, ← ih]
      cases f x with
      | none => simp
      | some y => cases xs.mapM f <;> simp

theorem mapM_eq_ok_iff {f : α → Except ε β} {xs : List α} {ys : List β} :
    xs.mapM f = .ok ys ↔ List.Forall₂ (fun x y => f x = .ok y) xs ys := by
  induction xs generalizing ys with
  | nil =>
      rw [List.mapM_nil, List.forall₂_nil_left_iff]
      exact ⟨fun h => (Except.ok.inj h).symm, fun h => congrArg Except.ok h.symm⟩
  | cons x xs ih =>
      simp only [List.mapM_cons, bind_eq_ok_iff, List.forall₂_cons_left_iff, ih]
      constructor
      · rintro ⟨y, hy, ys', hys, h⟩
        exact ⟨y, ys', hy, hys, (Except.ok.inj h).symm⟩
      · rintro ⟨y, ys', hy, hys, rfl⟩
        exact ⟨y, hy, ys', hys, rfl⟩

theorem exists_of_mem_right {R : α → β → Prop} {xs : List α} {ys : List β} (h : List.Forall₂ R xs ys)
    {y : β} (hy : y ∈ ys) : ∃ x ∈ xs, R x y := by
  induction h with
  | nil => cases hy
  | cons hxy _ ih =>
      rcases List.mem_cons.mp hy with rfl | hy
      · exact ⟨_, List.mem_cons_self, hxy⟩
      · obtain ⟨x, hx, hR⟩ := ih hy
        exact ⟨x, List.mem_cons_of_mem _ hx, hR⟩

theorem mapM_eq_error_iff {f : α → Except ε β} {xs : List α} {e : ε} :
    xs.mapM f = .error e ↔ ∃ before x after, xs = before ++ x :: after ∧
      (∀ y ∈ before, ∃ b, f y = .ok b) ∧ f x = .error e := by
  induction xs with
  | nil => exact iff_of_false nofun (by simp)
  | cons x xs ih =>
      simp only [List.mapM_cons, bind_eq_error_iff, ih]
      constructor
      · rintro (h | ⟨y, hy, ⟨before, z, after, rfl, hbefore, hz⟩ | ⟨ys, -, h⟩⟩)
        · exact ⟨[], x, xs, rfl, by simp, h⟩
        · exact ⟨x :: before, z, after, rfl, List.forall_mem_cons.mpr ⟨⟨y, hy⟩, hbefore⟩, hz⟩
        · cases h
      · rintro ⟨before, z, after, hsplit, hbefore, hz⟩
        cases before with
        | nil =>
            cases hsplit
            exact .inl hz
        | cons w before =>
            cases hsplit
            obtain ⟨⟨y, hy⟩, hbefore⟩ := List.forall_mem_cons.mp hbefore
            exact .inr ⟨y, hy, .inl ⟨before, z, after, rfl, hbefore, hz⟩⟩

theorem foldlM_eq_error_iff {f : β → α → Except ε β} {xs : List α} {s : β} {e : ε} :
    xs.foldlM f s = .error e ↔ ∃ before x after s', xs = before ++ x :: after ∧
      before.foldlM f s = .ok s' ∧ f s' x = .error e := by
  induction xs generalizing s with
  | nil => exact iff_of_false nofun (by simp)
  | cons x xs ih =>
      simp only [List.foldlM_cons, bind_eq_error_iff, ih]
      constructor
      · rintro (h | ⟨s₁, hs₁, before, y, after, s₂, rfl, hs₂, hy⟩)
        · exact ⟨[], x, xs, s, rfl, rfl, h⟩
        · exact ⟨x :: before, y, after, s₂, rfl, bind_eq_ok_iff.mpr ⟨s₁, hs₁, hs₂⟩, hy⟩
      · rintro ⟨before, y, after, s', hsplit, hbefore, hy⟩
        cases before with
        | nil =>
            cases hsplit
            cases hbefore
            exact .inl hy
        | cons w before =>
            cases hsplit
            obtain ⟨s₁, hs₁, hs'⟩ := bind_eq_ok_iff.mp hbefore
            exact .inr ⟨s₁, hs₁, before, y, after, s', rfl, hs', hy⟩

theorem foldlM_mapError (g : ε → ε') (f : β → α → Except ε β) (xs : List α) (s : β) :
    xs.foldlM (fun s x => (f s x).mapError g) s = (xs.foldlM f s).mapError g := by
  induction xs generalizing s with
  | nil => rfl
  | cons x xs ih =>
      rw [List.foldlM_cons, List.foldlM_cons]
      cases f s x with
      | error e => rfl
      | ok s' => exact ih s'

end AttributeTables
