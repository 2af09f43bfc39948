import AttributeTables.Proofs.Layout.Partition
import AttributeTables.Proofs.Output.Reading
import Mathlib.Data.List.TakeWhile

/-!
# The brackets of the enumerators

The entries of a layout are dealt out to the brackets from the front. Each bracket gets the
entries of its category, because the entries of different categories are never mixed.
-/

namespace AttributeTables

variable {k : Catalogue}

/-! ## Entries of one category -/

namespace Layout

variable {c : Category} {cs : List Category}

theorem beq_of_mem_entriesFrom_own {n : Nat} :
    ∀ e ∈ entriesFrom ((k.listed c).map (c, ·)) n, (e.category == c) = true :=
  fun _ he => beq_iff_eq.mpr (category_eq_of_mem_entriesFrom he)

theorem not_beq_of_mem_entriesFrom_under (hc : c ∉ cs) {n : Nat} :
    ∀ e ∈ entriesFrom (k.under cs) n, ¬ (e.category == c) = true :=
  fun _ he hcategory => hc (beq_iff_eq.mp hcategory ▸ category_mem_of_mem_entriesFrom he)

/-- At the front stand the entries of the first category, and no others of it come later. -/
theorem takeWhile_entriesFrom (hc : c ∉ cs) (n : Nat) :
    (entriesFrom (k.under (c :: cs)) n).takeWhile (·.category == c) =
      entriesFrom ((k.listed c).map (c, ·)) n := by
  rw [entriesFrom_under_cons, List.takeWhile_append_of_pos beq_of_mem_entriesFrom_own,
    List.takeWhile_eq_nil_iff.mpr fun _ => not_beq_of_mem_entriesFrom_under hc _ (List.get_mem _ _),
    List.append_nil]

theorem dropWhile_entriesFrom (hc : c ∉ cs) (n : Nat) :
    (entriesFrom (k.under (c :: cs)) n).dropWhile (·.category == c) =
      entriesFrom (k.under cs) (n + (k.listed c).length) := by
  rw [entriesFrom_under_cons, List.dropWhile_append_of_pos beq_of_mem_entriesFrom_own,
    List.dropWhile_eq_self_iff.mpr fun _ =>
      not_beq_of_mem_entriesFrom_under hc _ (List.getElem_mem _)]

end Layout

namespace Output

/-! ## Lines of brackets -/

theorem enumerator_ofNat (name : String) {n : Nat} (hn : n < UInt32.size) :
    enumerator name (.ofNat n) = definitionLine name n := by
  rw [enumerator, UInt32.toNat_ofNat_of_lt' hn]
  rfl

theorem map_enumerator_entriesFrom (c : Category) (ds : List Definition) {n : Nat}
    (hbound : n + ds.length < UInt32.size) :
    (Layout.entriesFrom (ds.map (c, ·)) n).map (fun e => enumerator e.name e.code) =
      numbered ds n := by
  induction ds generalizing n with
  | nil => rfl
  | cons d ds ih =>
      rw [List.length_cons] at hbound
      rw [List.map_cons, Layout.entriesFrom_cons, List.map_cons, numbered_cons, ih (by omega)]
      exact congrArg (· :: _) (enumerator_ofNat d.name (by omega))

/-- The bracket of a category takes exactly the attributes of its own. -/
theorem bracketLines_cons {c : Category} {cs : List Category} (hc : c ∉ cs) {n : Nat}
    (hbound : n + (k.under (c :: cs)).length < UInt32.size) :
    bracketLines (Layout.rangesFrom k (c :: cs) n) (Layout.entriesFrom (k.under (c :: cs)) n) =
      definitionLine (firstMarker c) n :: (numbered (k.listed c) n ++
        definitionLine (lastMarker c) (n + (k.listed c).length - 1) ::
          bracketLines (Layout.rangesFrom k cs (n + (k.listed c).length))
            (Layout.entriesFrom (k.under cs) (n + (k.listed c).length))) := by
  have hlen := k.length_under_cons c cs
  rw [Layout.rangesFrom, bracketLines, Layout.takeWhile_entriesFrom hc,
    Layout.dropWhile_entriesFrom hc, map_enumerator_entriesFrom c _ (by omega)]
  simp only [Layout.span, enumerator_ofNat _ (show n < UInt32.size by omega),
    enumerator_ofNat _ (show n + (k.listed c).length - 1 < UInt32.size by omega), List.cons_append]

/-! ## Brackets that are read back -/

/-- The brackets of categories whose attributes are numbered from `n` on. -/
def bracketsFrom (k : Catalogue) : List Category → Nat → List Bracket
  | [], _ => []
  | c :: cs, n => ⟨c, numbered (k.listed c) n⟩ :: bracketsFrom k cs (n + (k.listed c).length)

theorem brackets?_bracketLines (hname : ∀ c, ∀ d ∈ k.listed c, Text.IsIdentifier d.name)
    {cs : List Category} (hcs : cs.Nodup) {n : Nat} (hpos : 0 < n)
    (hbound : n + (k.under cs).length < UInt32.size) :
    brackets? cs (bracketLines (Layout.rangesFrom k cs n) (Layout.entriesFrom (k.under cs) n)) =
      some (bracketsFrom k cs n) := by
  induction cs generalizing n with
  | nil => rfl
  | cons c cs ih =>
      have hlen := k.length_under_cons c cs
      obtain ⟨hc, hcs⟩ := List.nodup_cons.mp hcs
      have hblank : ∀ d ∈ k.listed c, ' ' ∉ d.name.toList :=
        fun d hd => (hname c d hd).not_mem rfl
      rw [bracketLines_cons hc hbound, brackets?_cons hblank (by omega),
        ih hcs (by omega) (by omega)]
      rfl

theorem map_category_bracketsFrom (k : Catalogue) (cs : List Category) (n : Nat) :
    (bracketsFrom k cs n).map (·.category) = cs := by
  induction cs generalizing n with
  | nil => rfl
  | cons c cs ih => rw [bracketsFrom, List.map_cons, ih]

/-- Taken together, the brackets number all attributes. -/
theorem flatMap_bracketsFrom (k : Catalogue) (cs : List Category) (n : Nat) :
    (bracketsFrom k cs n).flatMap (·.definitions) = numbered (cs.flatMap k.listed) n := by
  induction cs generalizing n with
  | nil => rfl
  | cons c cs ih => rw [bracketsFrom, List.flatMap_cons, List.flatMap_cons, ih, numbered_append]

/-- Of the numbered attributes a bracket holds those of its category. -/
theorem definitions_of_mem_bracketsFrom
    (hcategory : ∀ c, ∀ d ∈ k.listed c, d.category = c) {cs : List Category} (hcs : cs.Nodup)
    {n : Nat} {b : Bracket} (hb : b ∈ bracketsFrom k cs n) :
    b.definitions = (((cs.flatMap k.listed).zipIdx n).filter (·.1.category = b.category)).map
      fun p => definitionLine p.1.name p.2 := by
  induction cs generalizing n with
  | nil => cases hb
  | cons c cs ih =>
      obtain ⟨hc, hcs⟩ := List.nodup_cons.mp hcs
      have hhead : ∀ p ∈ (k.listed c).zipIdx n, p.1.category = c :=
        fun p hp => hcategory c p.1 (List.fst_mem_of_mem_zipIdx hp)
      have htail : ∀ p ∈ (cs.flatMap k.listed).zipIdx (n + (k.listed c).length),
          p.1.category ∈ cs := by
        intro p hp
        obtain ⟨c', hc', hp⟩ := List.mem_flatMap.mp (List.fst_mem_of_mem_zipIdx hp)
        exact hcategory c' p.1 hp ▸ hc'
      rw [List.flatMap_cons, List.zipIdx_append, List.filter_append, List.map_append]
      rcases List.mem_cons.mp hb with rfl | hb
      · have hall : ((k.listed c).zipIdx n).filter (·.1.category = c) = (k.listed c).zipIdx n :=
          List.filter_eq_self.mpr fun p hp => by simpa using hhead p hp
        have hnone : ((cs.flatMap k.listed).zipIdx (n + (k.listed c).length)).filter
            (·.1.category = c) = [] := by
          rw [List.filter_eq_nil_iff]
          intro p hp heq
          exact hc (by simpa using of_decide_eq_true heq ▸ htail p hp)
        simp only [hall, hnone, numbered, List.map_nil, List.append_nil]
      · have hmem : b.category ∈ cs := by
          rw [← map_category_bracketsFrom k cs (n + (k.listed c).length)]
          exact List.mem_map_of_mem hb
        have hnone : ((k.listed c).zipIdx n).filter (·.1.category = b.category) = [] := by
          rw [List.filter_eq_nil_iff]
          intro p hp heq
          rw [← of_decide_eq_true heq, hhead p hp] at hmem
          exact hc hmem
        rw [hnone, List.map_nil, List.nil_append, ← ih hcs hb]

end Output

end AttributeTables
