import AttributeTables.Layout
import Mathlib.Data.List.Basic
import Mathlib.Tactic.SplitIfs

/-!
# The layout in closed form

Laying out a catalogue walks through its categories with a running 32-bit code. As long as that
code does not overflow, the entries are the listed attributes numbered one after the other, and
each range spans the numbers of its category.
-/

namespace AttributeTables

variable {k : Catalogue}

/-! ## Codes as numbers -/

theorem Code.next_ofNat {n : Nat} (hn : n < UInt32.size) :
    Code.next (.ofNat n) =
      if n + 1 < UInt32.size then .ok (.ofNat (n + 1)) else .error .addition := by
  rw [Code.next, UInt32.toNat_ofNat_of_lt' hn, UInt32.ofNat_add]
  rfl

theorem Code.previous_ofNat {n : Nat} (hn : n + 1 < UInt32.size) :
    Code.previous (.ofNat (n + 1)) = .ok (.ofNat n) := by
  rw [Code.previous, UInt32.toNat_ofNat_of_lt' hn, if_neg (Nat.succ_ne_zero n), UInt32.ofNat_add]
  simp

/-! ## Attributes in code order -/

/-- The attributes listed under some categories, each with the category that lists it. -/
def Catalogue.under (k : Catalogue) (cs : List Category) : List (Category × Definition) :=
  cs.flatMap fun c => (k.listed c).map (c, ·)

/-- The attributes that get codes, each with the category that lists it, in code order. -/
def Catalogue.placed (k : Catalogue) : List (Category × Definition) := k.under Category.codeBearing

@[simp] theorem Catalogue.under_nil : k.under [] = [] := rfl

@[simp] theorem Catalogue.under_cons (c : Category) (cs : List Category) :
    k.under (c :: cs) = (k.listed c).map (c, ·) ++ k.under cs := rfl

theorem Catalogue.length_under_cons (k : Catalogue) (c : Category) (cs : List Category) :
    (k.under (c :: cs)).length = (k.listed c).length + (k.under cs).length := by
  simp

theorem Catalogue.map_snd_under (k : Catalogue) (cs : List Category) :
    (k.under cs).map (·.2) = cs.flatMap k.listed := by
  induction cs with
  | nil => rfl
  | cons c cs ih => simp [ih, Function.comp_def]

theorem Catalogue.map_snd_placed (k : Catalogue) : k.placed.map (·.2) = k.codeBearing :=
  k.map_snd_under Category.codeBearing

theorem Catalogue.length_placed (k : Catalogue) : k.placed.length = k.codeBearing.length := by
  rw [← k.map_snd_placed, List.length_map]

theorem Catalogue.fst_mem_of_mem_under {cs : List Category} {p : Category × Definition}
    (hp : p ∈ k.under cs) : p.1 ∈ cs ∧ p.2 ∈ k.listed p.1 := by
  obtain ⟨c, hc, hp⟩ := List.mem_flatMap.mp hp
  obtain ⟨d, hd, rfl⟩ := List.mem_map.mp hp
  exact ⟨hc, hd⟩

namespace Layout

/-! ## Entries -/

/-- The entry of an attribute that gets the number. -/
def entry (p : Category × Definition) (n : Nat) : CodeEntry := ⟨p.2.name, p.1, .ofNat n⟩

/-- The entries of attributes that are numbered from `n` on. -/
def entriesFrom (ps : List (Category × Definition)) (n : Nat) : List CodeEntry :=
  (ps.zipIdx n).map fun p => entry p.1 p.2

@[simp] theorem entriesFrom_nil (n : Nat) : entriesFrom [] n = [] := rfl

@[simp] theorem entriesFrom_cons (p : Category × Definition) (ps : List (Category × Definition))
    (n : Nat) : entriesFrom (p :: ps) n = entry p n :: entriesFrom ps (n + 1) := rfl

theorem entriesFrom_append (ps qs : List (Category × Definition)) (n : Nat) :
    entriesFrom (ps ++ qs) n = entriesFrom ps n ++ entriesFrom qs (n + ps.length) := by
  simp [entriesFrom, List.zipIdx_append]

theorem entriesFrom_under_cons (c : Category) (cs : List Category) (n : Nat) :
    entriesFrom (k.under (c :: cs)) n = entriesFrom ((k.listed c).map (c, ·)) n ++
      entriesFrom (k.under cs) (n + (k.listed c).length) := by
  rw [Catalogue.under_cons, entriesFrom_append, List.length_map]

@[simp] theorem length_entriesFrom (ps : List (Category × Definition)) (n : Nat) :
    (entriesFrom ps n).length = ps.length := by
  simp [entriesFrom]

theorem getElem?_entriesFrom (ps : List (Category × Definition)) (n i : Nat) :
    (entriesFrom ps n)[i]? = ps[i]?.map (entry · (n + i)) := by
  simp [entriesFrom, List.getElem?_zipIdx, Function.comp_def]

theorem map_name_entriesFrom (ps : List (Category × Definition)) (n : Nat) :
    (entriesFrom ps n).map (·.name) = (ps.map (·.2)).map (·.name) := by
  induction ps generalizing n with
  | nil => rfl
  | cons p ps ih => simp [entry, ih]

theorem number_ofNat (c : Category) (ds : List Definition) {n : Nat} (hn : n < UInt32.size) :
    number c ds (.ofNat n) =
      if n + ds.length < UInt32.size then
        .ok (entriesFrom (ds.map (c, ·)) n, .ofNat (n + ds.length))
      else .error .addition := by
  induction ds generalizing n with
  | nil => simp [number, hn]
  | cons d ds ih =>
      rw [number, Code.next_ofNat hn]
      by_cases hnext : n + 1 < UInt32.size
      · have hlen : n + (d :: ds).length = n + 1 + ds.length := by
          rw [List.length_cons]; omega
        rw [if_pos hnext, hlen]
        simp only [bind, Except.bind, ih hnext]
        split_ifs <;> rfl
      · rw [if_neg hnext, if_neg (by simp only [List.length_cons]; omega)]
        rfl

/-! ## Ranges -/

/-- The range of a number of codes from `n` on. -/
def span (n size : Nat) : CodeRange := ⟨.ofNat n, .ofNat (n + size - 1)⟩

/-- The ranges of categories whose attributes are numbered from `n` on. -/
def rangesFrom (k : Catalogue) : List Category → Nat → List (Category × CodeRange)
  | [], _ => []
  | c :: cs, n =>
    (c, span n (k.listed c).length) :: rangesFrom k cs (n + (k.listed c).length)

theorem assignFrom_ofNat (k : Catalogue) (cs : List Category) {n : Nat} (hpos : 0 < n)
    (hn : n < UInt32.size) :
    assignFrom k cs (.ofNat n) =
      if n + (k.under cs).length < UInt32.size then
        .ok ⟨rangesFrom k cs n, entriesFrom (k.under cs) n⟩
      else .error .addition := by
  induction cs generalizing n with
  | nil => simp [assignFrom, rangesFrom, hn]
  | cons c cs ih =>
      rw [assignFrom, number_ofNat c _ hn]
      by_cases hstop : n + (k.listed c).length < UInt32.size
      · obtain ⟨m, hm⟩ : ∃ m, n + (k.listed c).length = m + 1 :=
          Nat.exists_eq_add_one.mpr (by omega)
        have hlen : n + (k.under (c :: cs)).length =
            n + (k.listed c).length + (k.under cs).length := by
          rw [k.length_under_cons, Nat.add_assoc]
        rw [if_pos hstop, hlen, rangesFrom, span, entriesFrom_under_cons]
        rw [hm] at hstop ⊢
        simp only [bind, Except.bind, Code.previous_ofNat hstop, ih (Nat.add_one_pos m) hstop]
        split_ifs <;> rfl
      · rw [if_neg hstop, if_neg (by simp; omega)]
        rfl

/-- There is a layout as long as the last code does not overflow, and then it is known. -/
theorem assign_eq (k : Catalogue) :
    assign k =
      if 1 + k.codeBearing.length < UInt32.size then
        .ok ⟨rangesFrom k Category.codeBearing 1, entriesFrom k.placed 1⟩
      else .error .addition := by
  rw [← k.length_placed]
  exact assignFrom_ofNat k Category.codeBearing Nat.one_pos (by decide)

end Layout

end AttributeTables
