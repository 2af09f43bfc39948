import AttributeTables.Proofs.Layout.Partition
import AttributeTables.Proofs.PropertyTable.Entries
import AttributeTables.Proofs.Registry.History

/-!
# Lookups agree

A registry, its layout and its property table are looked up by name or by code. All of them
describe one bijection between the names of the attributes that get codes and the codes.
-/

namespace AttributeTables

variable {r : Registry} {l : Layout} {t : PropertyTable}

/-! ## Names of a registry in its layout -/

theorem Registry.WellFormed.codeBearing_nodup (h : r.WellFormed) :
    (r.catalogue.codeBearing.map (·.name)).Nodup := by
  have hsplit : r.stored =
      r.catalogue.codeBearing ++ [Category.strBool, Category.complexStr].flatMap r.listed := by
    change (Category.codeBearing ++ [Category.strBool, Category.complexStr]).flatMap r.listed = _
    rw [List.flatMap_append]
    rfl
  have hnodup := h.stored_nodup
  rw [hsplit, List.map_append] at hnodup
  exact hnodup.of_append_left

/-- An attribute is placed under its own category, if that gets codes at all. -/
theorem Registry.WellFormed.mem_placed_iff (h : r.WellFormed) {c : Category} {d : Definition} :
    (c, d) ∈ r.catalogue.placed ↔ d ∈ r.stored ∧ d.category = c ∧ c.bearsCode = true := by
  simp only [Catalogue.placed, Catalogue.under, List.mem_flatMap, List.mem_map, Prod.mk.injEq,
    Category.mem_codeBearing, mem_stored]
  constructor
  · rintro ⟨c', hc, d', hd, rfl, rfl⟩
    exact ⟨⟨c', hd⟩, h.category_eq c' d' hd, hc⟩
  · rintro ⟨⟨c', hd⟩, rfl, hc⟩
    obtain rfl := h.category_eq c' d hd
    exact ⟨_, hc, d, hd, rfl, rfl⟩

/-! ## Codes by name -/

section Assigned

variable (h : r.WellFormed) (hl : Layout.assign r.catalogue = .ok l)
include h hl

theorem Layout.codeOf?_eq_some_iff {n : String} {code : Code} :
    l.codeOf? n = some code ↔ ∃ e ∈ l.entries, e.name = n ∧ e.code = code := by
  have hnames : (l.entries.map (·.name)).Nodup := by
    rw [entries_of_assign hl, map_name_entriesFrom, Catalogue.map_snd_placed]
    exact h.codeBearing_nodup
  simp only [codeOf?, Option.map_eq_some_iff, find?_key_eq_some_iff hnames, and_assoc]

/-- An attribute that gets codes is found in the layout, with its range, and in the table. -/
theorem Registry.exists_code_of_get? (ht : PropertyTable.build r.catalogue = .ok t)
    {n : String} {d : Definition} (hd : r.get? n = some d) (hc : d.category.bearsCode = true) :
    ∃ code, l.codeOf? n = some code ∧ l.categoryOf? code = some d.category ∧
      (∃ range, l.range? d.category = some range ∧ range.contains code = true) ∧
      t.get? code = some d.mask := by
  obtain ⟨hstored, rfl⟩ := (h.get?_eq_some_iff n).mp hd
  obtain ⟨i, hi⟩ := List.mem_iff_getElem?.mp (h.mem_placed_iff.mpr ⟨hstored, rfl, hc⟩)
  have hlt : i < r.catalogue.placed.length := (List.getElem?_eq_some_iff.mp hi).1
  have hentry : Layout.entry (d.category, d) (1 + i) ∈ l.entries := by
    rw [Layout.entries_of_assign hl]
    exact Layout.mem_entriesFrom.mpr ⟨i, _, hi, rfl⟩
  have hnat : (Layout.entry (d.category, d) (1 + i)).code.toNat = 1 + i :=
    Layout.entry_code_toNat (by have := Layout.placed_lt_of_assign hl; omega)
  have hcategory : l.categoryOf? (Layout.entry (d.category, d) (1 + i)).code = some d.category :=
    (Layout.categoryOf?_eq_some_iff_entry hl).mpr ⟨_, hentry, rfl, rfl⟩
  refine ⟨_, (Layout.codeOf?_eq_some_iff h hl).mpr ⟨_, hentry, rfl, rfl⟩, hcategory,
    (Layout.categoryOf?_eq_some_iff_contains hl).mp hcategory, ?_⟩
  have hzero : (Layout.entry (d.category, d) (1 + i)).code ≠ 0 := by
    rw [Ne, ← UInt32.toNat_inj, hnat]
    simp
  rw [PropertyTable.get?_of_build ht, if_neg hzero, hnat, Nat.add_sub_cancel_left,
    ← Catalogue.map_snd_placed, List.getElem?_map, hi]
  rfl

/-- A name without an attribute that gets codes has no code. -/
theorem Registry.codeOf?_eq_none {n : String}
    (hn : ∀ d, r.get? n = some d → d.category.bearsCode = false) : l.codeOf? n = none := by
  rw [Option.eq_none_iff_forall_ne_some]
  intro code hcode
  obtain ⟨e, he, rfl, -⟩ := (Layout.codeOf?_eq_some_iff h hl).mp hcode
  rw [Layout.entries_of_assign hl] at he
  obtain ⟨i, p, hp, rfl⟩ := Layout.mem_entriesFrom.mp he
  obtain ⟨hstored, hcategory, hbears⟩ := h.mem_placed_iff.mp (List.mem_of_getElem? hp)
  have hget := hn p.2 ((h.get?_eq_some_iff _).mpr ⟨hstored, rfl⟩)
  rw [hcategory, hbears] at hget
  cases hget

/-- Each code that was given out is the code of one name. -/
theorem Layout.isSome_categoryOf?_iff {code : Code} :
    (l.categoryOf? code).isSome = true ↔ ∃! n, l.codeOf? n = some code := by
  simp only [Option.isSome_iff_exists, categoryOf?_eq_some_iff_entry hl, codeOf?_eq_some_iff h hl]
  constructor
  · rintro ⟨c, e, he, hcode, -⟩
    refine ⟨e.name, ⟨e, he, rfl, hcode⟩, ?_⟩
    rintro n ⟨e', he', rfl, hcode'⟩
    rw [entry_eq_of_code_eq hl he' he (hcode'.trans hcode.symm)]
  · rintro ⟨n, ⟨e, he, -, hcode⟩, -⟩
    exact ⟨e.category, e, he, hcode, rfl⟩

omit h in
/-- The table has a byte for exactly the codes that were given out. -/
theorem PropertyTable.isSome_get?_iff (ht : PropertyTable.build r.catalogue = .ok t)
    {code : Code} : (t.get? code).isSome = true ↔ (l.categoryOf? code).isSome = true := by
  have hnone : t.get? code = none ↔ l.categoryOf? code = none := by
    rw [Layout.categoryOf?_eq_none_iff hl, get?_of_build ht]
    split_ifs with hzero
    · simp [hzero]
    · have hpos : code.toNat ≠ 0 := fun hnat => hzero (UInt32.toNat_inj.mp hnat)
      simp only [Option.map_eq_none_iff, List.getElem?_eq_none_iff, hzero, false_or]
      omega
  rw [Option.isSome_iff_ne_none, Option.isSome_iff_ne_none, Ne, Ne, hnone]

end Assigned

/-- Lookups by name and by code describe one bijection: an attribute that gets codes has a code in
the range of its category, where the table has its byte, no other name has a code, and each code
with a byte or a category belongs to exactly one name. -/
theorem Registry.lookups_agree (calls : List Call)
    (hsize : (Registry.ofCalls calls).catalogue.codeBearing.length ≤ UInt32.size - 2)
    (ht : PropertyTable.build (Registry.ofCalls calls).catalogue = .ok t) :
    ∃ l, Layout.assign (Registry.ofCalls calls).catalogue = .ok l ∧
      (∀ n d, (Registry.ofCalls calls).get? n = some d → d.category.bearsCode = true →
        ∃ code, l.codeOf? n = some code ∧ l.categoryOf? code = some d.category ∧
          (∃ range, l.range? d.category = some range ∧ range.contains code = true) ∧
          t.get? code = some d.mask) ∧
      (∀ n, ((Registry.ofCalls calls).get? n = none ∨
          ∃ d, (Registry.ofCalls calls).get? n = some d ∧
            (d.category = .strBool ∨ d.category = .complexStr)) → l.codeOf? n = none) ∧
      (∀ code, ((t.get? code).isSome = true ↔ (l.categoryOf? code).isSome = true) ∧
        ((l.categoryOf? code).isSome = true ↔ ∃! n, l.codeOf? n = some code)) ∧
      t.size = l.size := by
  have hwf := wellFormed_ofCalls calls
  obtain ⟨l, hl⟩ := (Layout.exists_assign_iff (k := (Registry.ofCalls calls).catalogue)).mpr hsize
  refine ⟨l, hl, fun n d hd hc => exists_code_of_get? hwf hl ht hd hc, ?_,
    fun code => ⟨PropertyTable.isSome_get?_iff hl ht, Layout.isSome_categoryOf?_iff hwf hl⟩, ?_⟩
  · intro n hn
    refine codeOf?_eq_none hwf hl fun d hd => ?_
    rcases hn with hnone | ⟨d', hd', hcategory⟩
    · rw [hnone] at hd
      cases hd
    · rw [hd] at hd'
      cases hd'
      rcases hcategory with hcategory | hcategory <;> rw [hcategory] <;> rfl
  · rw [PropertyTable.size, Layout.size, PropertyTable.entries_of_build ht,
      Layout.entries_of_assign hl, List.length_map, Layout.length_entriesFrom,
      Catalogue.length_placed]

theorem Registry.lookups_agree_small :
    let calls : List Call := [.insert ⟨"Align", .int, "align", [⟨32⟩]⟩,
      .insert ⟨"Hot", .enum, "hot", [⟨1⟩, ⟨16⟩]⟩, .insert ⟨"Hot", .type, "warm", []⟩,
      .insert ⟨"Text", .strBool, "text", [⟨32⟩]⟩]
    let t : PropertyTable :=
      ⟨[⟨"Hot", .enum, [⟨1⟩, ⟨16⟩], ⟨17⟩⟩, ⟨"Align", .int, [⟨32⟩], ⟨32⟩⟩]⟩
    (Registry.ofCalls calls).catalogue.codeBearing.length ≤ UInt32.size - 2 ∧
    PropertyTable.build (Registry.ofCalls calls).catalogue = .ok t ∧
    ∃ l, Layout.assign (Registry.ofCalls calls).catalogue = .ok l ∧
      (∃ code, l.codeOf? "Align" = some code ∧ l.categoryOf? code = some .int ∧
        t.get? code = some ⟨32⟩) ∧
      l.codeOf? "Text" = none ∧ l.codeOf? "Cold" = none ∧ l.size = 2 := by
  intro calls t
  have hsize : (Registry.ofCalls calls).catalogue.codeBearing.length ≤ UInt32.size - 2 := by decide
  have ht : PropertyTable.build (Registry.ofCalls calls).catalogue = .ok t := rfl
  obtain ⟨l, hl, hcoded, huncoded, -, hcount⟩ := Registry.lookups_agree calls hsize ht
  obtain ⟨code, hcode, hcategory, -, hflags⟩ := hcoded "Align" _ rfl rfl
  refine ⟨hsize, ht, l, hl, ⟨code, hcode, hcategory, hflags⟩, ?_, ?_, hcount.symm⟩
  · exact huncoded "Text" (.inr ⟨_, rfl, .inl rfl⟩)
  · exact huncoded "Cold" (.inl rfl)

end AttributeTables
