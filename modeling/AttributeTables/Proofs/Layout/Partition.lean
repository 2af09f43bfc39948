import AttributeTables.Proofs.Layout.Numbering
import AttributeTables.Proofs.Layout.Ranges
import AttributeTables.Proofs.Search
import Mathlib.Data.List.Chain

/-!
# Ranges partition the codes

The ranges of a layout follow each other without a gap, an empty one included, and each code that
was given out lies in the range of its own category and in no other.
-/

namespace AttributeTables

variable {k : Catalogue} {l : Layout}

namespace Layout

/-! ## Spans -/

theorem span_first_toNat {n size : Nat} (hn : n < UInt32.size) : (span n size).first.toNat = n :=
  UInt32.toNat_ofNat_of_lt' hn

theorem span_last_toNat {n size : Nat} (hbound : n + size < UInt32.size) :
    (span n size).last.toNat = n + size - 1 :=
  UInt32.toNat_ofNat_of_lt' (by omega)

theorem contains_span {n size : Nat} (hpos : 0 < n) (hbound : n + size < UInt32.size)
    (code : Code) :
    (span n size).contains code = true ↔ n ≤ code.toNat ∧ code.toNat < n + size := by
  rw [CodeRange.contains_iff, span_first_toNat (by omega), span_last_toNat hbound]
  omega

/-- The number of codes is computed without overflow, also when there is none. -/
theorem size_span {n size : Nat} (hpos : 0 < n) (hbound : n + size < UInt32.size) :
    (span n size).size = .ok size := by
  rw [CodeRange.size_eq_ok_iff, span_first_toNat (by omega), span_last_toNat hbound]
  omega

/-! ## Entries -/

theorem mem_entriesFrom {ps : List (Category × Definition)} {n : Nat} {e : CodeEntry} :
    e ∈ entriesFrom ps n ↔ ∃ i p, ps[i]? = some p ∧ e = entry p (n + i) := by
  rw [List.mem_iff_getElem?]
  simp only [getElem?_entriesFrom, Option.map_eq_some_iff]
  exact exists_congr fun i => exists_congr fun p => and_congr_right fun _ => eq_comm

theorem category_mem_of_mem_entriesFrom {cs : List Category} {n : Nat} {e : CodeEntry}
    (he : e ∈ entriesFrom (k.under cs) n) : e.category ∈ cs := by
  obtain ⟨i, p, hp, rfl⟩ := mem_entriesFrom.mp he
  exact (Catalogue.fst_mem_of_mem_under (List.mem_of_getElem? hp)).1

theorem category_eq_of_mem_entriesFrom {c : Category} {ds : List Definition} {n : Nat}
    {e : CodeEntry} (he : e ∈ entriesFrom (ds.map (c, ·)) n) : e.category = c := by
  obtain ⟨i, p, hp, rfl⟩ := mem_entriesFrom.mp he
  obtain ⟨d, _, rfl⟩ := List.mem_map.mp (List.mem_of_getElem? hp)
  rfl

theorem entry_code_toNat {p : Category × Definition} {n : Nat} (hn : n < UInt32.size) :
    (entry p n).code.toNat = n :=
  UInt32.toNat_ofNat_of_lt' hn

/-- The codes count up. -/
theorem map_code_entriesFrom (ps : List (Category × Definition)) {n : Nat}
    (hbound : n + ps.length < UInt32.size) :
    (entriesFrom ps n).map (·.code.toNat) = List.range' n ps.length := by
  induction ps generalizing n with
  | nil => rfl
  | cons p ps ih =>
      rw [List.length_cons] at hbound
      rw [entriesFrom_cons, List.map_cons, ih (by omega), entry_code_toNat (by omega),
        List.length_cons, List.range'_succ]

/-- Every code of the numbered ones belongs to an entry. -/
theorem exists_entry_code_iff {ps : List (Category × Definition)} {n : Nat}
    (hbound : n + ps.length < UInt32.size) (code : Code) :
    (∃ e ∈ entriesFrom ps n, e.code = code) ↔ n ≤ code.toNat ∧ code.toNat < n + ps.length := by
  have hmem : (∃ e ∈ entriesFrom ps n, e.code = code) ↔
      code.toNat ∈ (entriesFrom ps n).map (·.code.toNat) := by
    simp only [List.mem_map, UInt32.toNat_inj]
  rw [hmem, map_code_entriesFrom ps hbound, List.mem_range'_1]

/-- No two entries share a code. -/
theorem eq_of_code_eq {ps : List (Category × Definition)} {n : Nat}
    (hbound : n + ps.length < UInt32.size) {e e' : CodeEntry} (he : e ∈ entriesFrom ps n)
    (he' : e' ∈ entriesFrom ps n) (hcode : e.code = e'.code) : e = e' := by
  have hnodup : ((entriesFrom ps n).map (·.code.toNat)).Nodup := by
    rw [map_code_entriesFrom ps hbound]
    exact List.nodup_range'
  exact List.inj_on_of_nodup_map hnodup he he' (congrArg UInt32.toNat hcode)

/-! ## Ranges -/

theorem map_fst_rangesFrom (k : Catalogue) (cs : List Category) (n : Nat) :
    (rangesFrom k cs n).map (·.1) = cs := by
  induction cs generalizing n with
  | nil => rfl
  | cons c cs ih => simp [rangesFrom, ih]

theorem first_of_mem_head?_rangesFrom {cs : List Category} {n : Nat} {p : Category × CodeRange}
    (hp : p ∈ (rangesFrom k cs n).head?) : p.2.first = .ofNat n := by
  cases cs with
  | nil => cases hp
  | cons c cs =>
      cases hp
      rfl

/-- Each range starts right after the one before, also after an empty one. -/
theorem isChain_rangesFrom (cs : List Category) {n : Nat} (hpos : 0 < n)
    (hbound : n + (k.under cs).length < UInt32.size) :
    (rangesFrom k cs n).IsChain fun p q => q.2.first.toNat = p.2.last.toNat + 1 := by
  induction cs generalizing n with
  | nil => exact .nil
  | cons c cs ih =>
      have hlen := k.length_under_cons c cs
      refine List.isChain_cons.mpr ⟨fun q hq => ?_, ih (by omega) (by omega)⟩
      rw [first_of_mem_head?_rangesFrom hq, UInt32.toNat_ofNat_of_lt' (by omega),
        span_last_toNat (by omega)]
      omega

theorem size_of_mem_rangesFrom {cs : List Category} {n : Nat} (hpos : 0 < n)
    (hbound : n + (k.under cs).length < UInt32.size) {p : Category × CodeRange}
    (hp : p ∈ rangesFrom k cs n) : p.2.size = .ok (k.listed p.1).length := by
  induction cs generalizing n with
  | nil => cases hp
  | cons c cs ih =>
      have hlen := k.length_under_cons c cs
      rcases List.mem_cons.mp hp with rfl | hp
      · exact size_span hpos (by omega)
      · exact ih (by omega) (by omega) hp

/-- A range holds exactly the codes of the entries of its category. -/
theorem contains_iff_entry {cs : List Category} (hcs : cs.Nodup) {n : Nat} (hpos : 0 < n)
    (hbound : n + (k.under cs).length < UInt32.size) {p : Category × CodeRange}
    (hp : p ∈ rangesFrom k cs n) (code : Code) :
    p.2.contains code = true ↔
      ∃ e ∈ entriesFrom (k.under cs) n, e.code = code ∧ e.category = p.1 := by
  induction cs generalizing n with
  | nil => cases hp
  | cons c cs ih =>
      have hlen := k.length_under_cons c cs
      obtain ⟨hc, hcs⟩ := List.nodup_cons.mp hcs
      rw [entriesFrom_under_cons]
      have hown : ∀ e ∈ entriesFrom ((k.listed c).map (c, ·)) n, e.category = c :=
        fun e he => category_eq_of_mem_entriesFrom he
      have hothers : ∀ e ∈ entriesFrom (k.under cs) (n + (k.listed c).length), e.category ∈ cs :=
        fun e he => category_mem_of_mem_entriesFrom he
      simp only [List.mem_append]
      rcases List.mem_cons.mp hp with rfl | hp
      · -- Only the entries of the first category count, and they fill its span.
        have hfill : (∃ e ∈ entriesFrom ((k.listed c).map (c, ·)) n, e.code = code) ↔
            n ≤ code.toNat ∧ code.toNat < n + ((k.listed c).map (c, ·)).length :=
          exists_entry_code_iff (by rw [List.length_map]; omega) code
        rw [List.length_map] at hfill
        rw [contains_span hpos (by omega), ← hfill]
        constructor
        · rintro ⟨e, he, hcode⟩
          exact ⟨e, .inl he, hcode, hown e he⟩
        · rintro ⟨e, he | he, hcode, hcategory⟩
          · exact ⟨e, he, hcode⟩
          · have hin := hothers e he
            rw [hcategory] at hin
            exact absurd hin hc
      · -- The entries of the first category are of another one.
        have hmem : p.1 ∈ cs := by
          rw [← map_fst_rangesFrom k cs (n + (k.listed c).length)]
          exact List.mem_map_of_mem hp
        rw [ih hcs (by omega) (by omega) hp]
        constructor
        · rintro ⟨e, he, h⟩
          exact ⟨e, .inr he, h⟩
        · rintro ⟨e, he | he, hcode, hcategory⟩
          · rw [← hcategory, hown e he] at hmem
            exact absurd hmem hc
          · exact ⟨e, he, hcode, hcategory⟩

/-! ## The layout of a catalogue -/

theorem assign_eq_ok_iff :
    assign k = .ok l ↔ k.codeBearing.length ≤ UInt32.size - 2 ∧
      l = ⟨rangesFrom k Category.codeBearing 1, entriesFrom k.placed 1⟩ := by
  have hbound : 1 + k.codeBearing.length < UInt32.size ↔ k.codeBearing.length ≤ UInt32.size - 2 := by
    simp only [UInt32.size]
    omega
  rw [assign_eq, ← hbound]
  split_ifs with hlt
  · simp [hlt, eq_comm]
  · simp [hlt]

theorem exists_assign_iff : (∃ l, assign k = .ok l) ↔ k.codeBearing.length ≤ UInt32.size - 2 := by
  simp [assign_eq_ok_iff]

theorem codeBearing_nodup : Category.codeBearing.Nodup := by decide

section Assigned

variable (h : assign k = .ok l)
include h

theorem entries_of_assign : l.entries = entriesFrom k.placed 1 := by
  rw [(assign_eq_ok_iff.mp h).2]

theorem ranges_of_assign : l.ranges = rangesFrom k Category.codeBearing 1 := by
  rw [(assign_eq_ok_iff.mp h).2]

theorem placed_lt_of_assign : 1 + k.placed.length < UInt32.size := by
  have hle := (assign_eq_ok_iff.mp h).1
  rw [k.length_placed]
  simp only [UInt32.size] at hle ⊢
  omega

theorem map_fst_ranges : l.ranges.map (·.1) = Category.codeBearing := by
  rw [ranges_of_assign h, map_fst_rangesFrom]

theorem ranges_nodup : (l.ranges.map (·.1)).Nodup := by
  rw [map_fst_ranges h]
  exact codeBearing_nodup

theorem range?_eq_some_iff {c : Category} {r : CodeRange} :
    l.range? c = some r ↔ (c, r) ∈ l.ranges := by
  simp [range?, Option.map_eq_some_iff, find?_key_eq_some_iff (ranges_nodup h)]

theorem contains_iff_exists_entry {p : Category × CodeRange} (hp : p ∈ l.ranges) (code : Code) :
    p.2.contains code = true ↔ ∃ e ∈ l.entries, e.code = code ∧ e.category = p.1 := by
  rw [ranges_of_assign h] at hp
  rw [entries_of_assign h]
  exact contains_iff_entry codeBearing_nodup Nat.one_pos (placed_lt_of_assign h) hp code

theorem entry_eq_of_code_eq {e e' : CodeEntry} (he : e ∈ l.entries) (he' : e' ∈ l.entries)
    (hcode : e.code = e'.code) : e = e' := by
  rw [entries_of_assign h] at he he'
  exact eq_of_code_eq (placed_lt_of_assign h) he he' hcode

/-- At most one range contains a code. -/
theorem range_eq_of_contains {p q : Category × CodeRange} (hp : p ∈ l.ranges) (hq : q ∈ l.ranges)
    {code : Code} (hpc : p.2.contains code = true) (hqc : q.2.contains code = true) : p = q := by
  obtain ⟨e, he, hcode, hcategory⟩ := (contains_iff_exists_entry h hp code).mp hpc
  obtain ⟨e', he', hcode', hcategory'⟩ := (contains_iff_exists_entry h hq code).mp hqc
  obtain rfl := entry_eq_of_code_eq h he he' (hcode.trans hcode'.symm)
  exact List.inj_on_of_nodup_map (ranges_nodup h) hp hq (hcategory.symm.trans hcategory')

theorem categoryOf?_eq_some_iff_contains {code : Code} {c : Category} :
    l.categoryOf? code = some c ↔ ∃ r, l.range? c = some r ∧ r.contains code = true := by
  have hunique : ∀ p ∈ l.ranges, ∀ q ∈ l.ranges,
      p.2.contains code = true → q.2.contains code = true → p = q :=
    fun p hp q hq => range_eq_of_contains h hp hq
  simp [categoryOf?, Option.map_eq_some_iff, find?_eq_some_iff_of_unique hunique,
    range?_eq_some_iff h]

theorem categoryOf?_eq_some_iff_entry {code : Code} {c : Category} :
    l.categoryOf? code = some c ↔ ∃ e ∈ l.entries, e.code = code ∧ e.category = c := by
  rw [categoryOf?_eq_some_iff_contains h]
  constructor
  · rintro ⟨r, hr, hcontains⟩
    exact (contains_iff_exists_entry h ((range?_eq_some_iff h).mp hr) code).mp hcontains
  · rintro ⟨e, he, hcode, rfl⟩
    have hcategory : e.category ∈ l.ranges.map (·.1) := by
      rw [map_fst_ranges h]
      exact category_mem_of_mem_entriesFrom (n := 1) (k := k) (entries_of_assign h ▸ he)
    obtain ⟨p, hp, heq⟩ := List.mem_map.mp hcategory
    refine ⟨p.2, (range?_eq_some_iff h).mpr (heq ▸ hp), ?_⟩
    exact (contains_iff_exists_entry h hp code).mpr ⟨e, he, hcode, heq.symm⟩

/-- The codes of a layout are the numbers from one on. -/
theorem categoryOf?_eq_none_iff {code : Code} :
    l.categoryOf? code = none ↔ code = 0 ∨ k.codeBearing.length < code.toNat := by
  have hcodes := exists_entry_code_iff (placed_lt_of_assign h) code
  have hsome : (∃ c, l.categoryOf? code = some c) ↔ ∃ e ∈ l.entries, e.code = code := by
    simp only [categoryOf?_eq_some_iff_entry h]
    exact ⟨fun ⟨_, e, he, hcode, _⟩ => ⟨e, he, hcode⟩, fun ⟨e, he, hcode⟩ => ⟨_, e, he, hcode, rfl⟩⟩
  have hzero : code = 0 ↔ code.toNat = 0 := UInt32.toNat_inj.symm
  rw [Option.eq_none_iff_forall_ne_some, hzero, ← k.length_placed]
  rw [entries_of_assign h, hcodes] at hsome
  constructor
  · intro hnone
    have := mt hsome.mpr (fun ⟨c, hc⟩ => hnone c hc)
    omega
  · intro hout c hc
    have := hsome.mp ⟨c, hc⟩
    omega

/-! ## The order of categories -/

omit h in
theorem under_pairwise {cs : List Category} (hcs : cs.Pairwise fun c c' => c.position ≤ c'.position) :
    (k.under cs).Pairwise fun p q => p.1.position ≤ q.1.position := by
  induction cs with
  | nil => exact .nil
  | cons c cs ih =>
      obtain ⟨hc, hcs⟩ := List.pairwise_cons.mp hcs
      refine List.pairwise_append.mpr ⟨?_, ih hcs, fun p hp q hq => ?_⟩
      · exact List.pairwise_map.mpr (List.pairwise_of_forall fun _ _ => Nat.le_refl _)
      · obtain ⟨d, _, rfl⟩ := List.mem_map.mp hp
        exact hc q.1 (Catalogue.fst_mem_of_mem_under hq).1

/-- A larger code never belongs to an earlier category. -/
theorem position_le_of_lt {a b : Code} (hab : a < b) {c c' : Category}
    (ha : l.categoryOf? a = some c) (hb : l.categoryOf? b = some c') :
    c.position ≤ c'.position := by
  obtain ⟨e, he, rfl, rfl⟩ := (categoryOf?_eq_some_iff_entry h).mp ha
  obtain ⟨e', he', rfl, rfl⟩ := (categoryOf?_eq_some_iff_entry h).mp hb
  rw [entries_of_assign h] at he he'
  obtain ⟨i, p, hp, rfl⟩ := mem_entriesFrom.mp he
  obtain ⟨j, q, hq, rfl⟩ := mem_entriesFrom.mp he'
  obtain ⟨hi, rfl⟩ := List.getElem?_eq_some_iff.mp hp
  obtain ⟨hj, rfl⟩ := List.getElem?_eq_some_iff.mp hq
  have hbound := placed_lt_of_assign h
  rw [UInt32.lt_iff_toNat_lt, entry_code_toNat (by omega), entry_code_toNat (by omega)] at hab
  exact List.pairwise_iff_getElem.mp (under_pairwise (by decide)) i j hi hj (by omega)

end Assigned

/-- Codes are given out exactly as long as they fit in 32 bits. Then the attributes are numbered
from one on in code order; the ranges follow each other, count the attributes of their categories,
and decide of every code to which category it belongs. -/
theorem assign_partitions_codes (k : Catalogue) :
    ((∃ l, assign k = .ok l) ↔ k.codeBearing.length ≤ UInt32.size - 2) ∧
    k.placed.map (·.2) = k.codeBearing ∧
    ∀ l, assign k = .ok l →
      (∀ i : Nat, l.entries[i]? = k.placed[i]?.map fun p => ⟨p.2.name, p.1, .ofNat (i + 1)⟩) ∧
      (∀ (i : Nat) (e : CodeEntry), l.entries[i]? = some e → e.code.toNat = i + 1) ∧
      l.ranges.map (·.1) = Category.codeBearing ∧
      (l.ranges.head?.map fun p => p.2.first) = some 1 ∧
      (l.ranges.IsChain fun p q => q.2.first.toNat = p.2.last.toNat + 1) ∧
      (∀ p ∈ l.ranges, p.2.size = .ok (k.listed p.1).length) ∧
      (∀ code c, l.categoryOf? code = some c ↔ ∃ r, l.range? c = some r ∧ r.contains code = true) ∧
      (∀ code c, l.categoryOf? code = some c ↔ ∃ e ∈ l.entries, e.code = code ∧ e.category = c) ∧
      (∀ code, ∀ p ∈ l.ranges, ∀ q ∈ l.ranges,
        p.2.contains code = true → q.2.contains code = true → p = q) ∧
      (∀ code, l.categoryOf? code = none ↔ code = 0 ∨ k.codeBearing.length < code.toNat) ∧
      (∀ a b c c', a < b → l.categoryOf? a = some c → l.categoryOf? b = some c' →
        c.position ≤ c'.position) := by
  refine ⟨exists_assign_iff, k.map_snd_placed, fun l h => ?_⟩
  have hbound := placed_lt_of_assign h
  refine ⟨?_, ?_, map_fst_ranges h, ?_, ?_, ?_, fun _ _ => categoryOf?_eq_some_iff_contains h,
    fun _ _ => categoryOf?_eq_some_iff_entry h, fun _ _ hp _ hq => range_eq_of_contains h hp hq,
    fun _ => categoryOf?_eq_none_iff h, fun _ _ _ _ hab => position_le_of_lt h hab⟩
  · intro i
    rw [entries_of_assign h, getElem?_entriesFrom, Nat.add_comm]
    rfl
  · intro i e he
    rw [entries_of_assign h, getElem?_entriesFrom] at he
    obtain ⟨p, hp, rfl⟩ := Option.map_eq_some_iff.mp he
    have hi : i < k.placed.length := (List.getElem?_eq_some_iff.mp hp).1
    rw [entry_code_toNat (by omega), Nat.add_comm]
  · rw [ranges_of_assign h]
    rfl
  · rw [ranges_of_assign h]
    exact isChain_rangesFrom _ Nat.one_pos hbound
  · intro p hp
    rw [ranges_of_assign h] at hp
    exact size_of_mem_rangesFrom Nat.one_pos hbound hp

end Layout

end AttributeTables
