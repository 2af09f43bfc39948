import AttributeTables.Proofs.Lookups
import AttributeTables.Proofs.Registry.Acceptance

/-!
# Codes of a registry that grows

The code of an attribute is the number of attributes in earlier categories, plus its place in its own
category. A new attribute comes last in its category, so it shifts the codes of all later categories by
one and leaves the others alone.
-/

namespace AttributeTables

variable {k : Catalogue} {r : Registry} {l : Layout} {d : Definition}

/-! ## Earlier and later categories -/

/-- The categories whose attributes get lower codes. -/
def Category.earlier (c : Category) : List Category := codeBearing.filter (·.position < c.position)

/-- The categories whose attributes get higher codes. -/
def Category.later (c : Category) : List Category := codeBearing.filter (c.position < ·.position)

theorem Category.codeBearing_eq_append :
    ∀ c ∈ codeBearing, codeBearing = c.earlier ++ c :: c.later := by
  decide

theorem Category.nodup_earlier (c : Category) : c.earlier.Nodup := Layout.codeBearing_nodup.filter _

theorem Category.mem_earlier {c c' : Category} (hc' : c'.bearsCode = true) :
    c' ∈ c.earlier ↔ c'.position < c.position := by
  simp [earlier, hc']

theorem Category.position_injective {c c' : Category} (h : c.position = c'.position) : c = c' := by
  cases c <;> cases c' <;> first | rfl | exact absurd h (by decide)

/-! ## Closed forms -/

theorem Catalogue.under_append (k : Catalogue) (cs cs' : List Category) :
    k.under (cs ++ cs') = k.under cs ++ k.under cs' :=
  List.flatMap_append

theorem Catalogue.placed_eq_append (k : Catalogue) {c : Category} (hc : c.bearsCode = true) :
    k.placed = k.under c.earlier ++ ((k.listed c).map (c, ·) ++ k.under c.later) := by
  rw [placed, Category.codeBearing_eq_append c ((Category.mem_codeBearing c).mpr hc), under_append,
    under_cons]

namespace Layout

theorem rangesFrom_append (k : Catalogue) (cs cs' : List Category) (n : Nat) :
    rangesFrom k (cs ++ cs') n =
      rangesFrom k cs n ++ rangesFrom k cs' (n + (k.under cs).length) := by
  induction cs generalizing n with
  | nil => rfl
  | cons c cs ih =>
      rw [List.cons_append, rangesFrom, rangesFrom, ih, k.length_under_cons, Nat.add_assoc]
      rfl

section Assigned

variable (hl : assign k = .ok l) {c : Category} (hc : c.bearsCode = true)
include hl hc

theorem range?_eq_span :
    l.range? c = some (span (1 + (k.under c.earlier).length) (k.listed c).length) := by
  rw [range?_eq_some_iff hl, ranges_of_assign hl,
    Category.codeBearing_eq_append c ((Category.mem_codeBearing c).mpr hc), rangesFrom_append]
  exact List.mem_append_right _ List.mem_cons_self

theorem earlier_add_listed_lt : 1 + (k.under c.earlier).length + (k.listed c).length < UInt32.size := by
  have hbound := placed_lt_of_assign hl
  rw [k.placed_eq_append hc, List.length_append, List.length_append, List.length_map] at hbound
  omega

end Assigned

theorem exists_codeOf? (h : r.WellFormed) (hl : assign r.catalogue = .ok l) {c : Category}
    (hc : c.bearsCode = true) {j : Nat} (hd : (r.listed c)[j]? = some d) :
    ∃ code, l.codeOf? d.name = some code ∧
      code.toNat = 1 + (r.catalogue.under c.earlier).length + j := by
  obtain ⟨hj, -⟩ := List.getElem?_eq_some_iff.mp hd
  have hbound : 1 + (r.catalogue.under c.earlier).length + (r.listed c).length < UInt32.size :=
    earlier_add_listed_lt hl hc
  have hplace : r.catalogue.placed[(r.catalogue.under c.earlier).length + j]? = some (c, d) := by
    have hmap : ((r.catalogue.listed c).map (c, ·))[j]? = some (c, d) := by
      rw [List.getElem?_map, show (r.catalogue.listed c)[j]? = some d from hd]
      rfl
    have hlength : j < ((r.catalogue.listed c).map (c, ·)).length := by
      rw [List.length_map]
      exact hj
    rw [r.catalogue.placed_eq_append hc, List.getElem?_append_right (Nat.le_add_right _ _),
      Nat.add_sub_cancel_left, List.getElem?_append_left hlength, hmap]
  have hentry : entry (c, d) (1 + ((r.catalogue.under c.earlier).length + j)) ∈ l.entries := by
    rw [entries_of_assign hl]
    exact mem_entriesFrom.mpr ⟨_, _, hplace, rfl⟩
  refine ⟨_, (codeOf?_eq_some_iff h hl).mpr ⟨_, hentry, rfl, rfl⟩, ?_⟩
  rw [entry_code_toNat (by omega), Nat.add_assoc]

/-- Only what is listed under the categories that bear codes counts. -/
theorem assign_congr {k k' : Catalogue}
    (h : ∀ c : Category, c.bearsCode = true → k.listed c = k'.listed c) : assign k = assign k' := by
  have hfrom : ∀ (cs : List Category) (first : Code), (∀ c ∈ cs, c.bearsCode = true) →
      assignFrom k cs first = assignFrom k' cs first := by
    intro cs
    induction cs with
    | nil => exact fun _ _ => rfl
    | cons c cs ih =>
        intro first hcs
        obtain ⟨hc, hcs⟩ := List.forall_mem_cons.mp hcs
        simp only [assignFrom, h c hc, ih _ hcs]
  exact hfrom Category.codeBearing firstCode fun c hc => (Category.mem_codeBearing c).mp hc

end Layout

theorem PropertyTable.build_congr {k k' : Catalogue}
    (h : ∀ c : Category, c.bearsCode = true → k.listed c = k'.listed c) : build k = build k' := by
  have hcoded : k.codeBearing = k'.codeBearing :=
    List.flatMap_congr fun c hc => h c ((Category.mem_codeBearing c).mp hc)
  rw [build, build, hcoded]

/-! ## One more attribute -/

theorem Registry.extend_insert_listed (r : Registry) (d : Definition) (c : Category) :
    (r.extend (.insert d)).listed c = r.listed c ++ [d].filter (·.category = c) :=
  (r.claim d.name).enlist_listed d c

theorem Registry.listed_of_ne (r : Registry) {c : Category} (hc : d.category ≠ c) :
    (r.extend (.insert d)).listed c = r.listed c := by
  rw [extend_insert_listed, List.filter_cons_of_neg (by simpa using hc)]
  exact List.append_nil _

theorem Registry.listed_own (r : Registry) (d : Definition) :
    (r.extend (.insert d)).listed d.category = r.listed d.category ++ [d] := by
  rw [extend_insert_listed, List.filter_cons_of_pos (by simp)]
  rfl

theorem Registry.length_listed_insert (r : Registry) (d : Definition) (c : Category) :
    ((r.extend (.insert d)).listed c).length =
      (r.listed c).length + if d.category = c then 1 else 0 := by
  by_cases hd : d.category = c
  · subst hd
    rw [if_pos rfl, listed_own, List.length_append]
    rfl
  · rw [if_neg hd, r.listed_of_ne hd, Nat.add_zero]

theorem Registry.length_under_insert (r : Registry) (d : Definition) {cs : List Category}
    (hcs : cs.Nodup) :
    ((r.extend (.insert d)).catalogue.under cs).length =
      (r.catalogue.under cs).length + if d.category ∈ cs then 1 else 0 := by
  induction cs with
  | nil => rfl
  | cons c cs ih =>
      obtain ⟨hc, hcs⟩ := List.nodup_cons.mp hcs
      have hlength : ((r.extend (.insert d)).catalogue.listed c).length =
          (r.catalogue.listed c).length + if d.category = c then 1 else 0 :=
        r.length_listed_insert d c
      rw [Catalogue.length_under_cons, Catalogue.length_under_cons, ih hcs, hlength]
      by_cases hd : d.category = c
      · subst hd
        simp only [if_true, hc, if_false, List.mem_cons_self]
        omega
      · simp only [hd, if_false, List.mem_cons, false_or]
        omega

theorem Registry.listed_of_uncoded (hd : d.category.bearsCode = false) (r : Registry) :
    ∀ c : Category, c.bearsCode = true → (r.extend (.insert d)).listed c = r.listed c := by
  intro c hc
  refine r.listed_of_ne ?_
  rintro rfl
  rw [hd] at hc
  cases hc

theorem Registry.WellFormed.get?_insert (h : r.WellFormed)
    (hok : (Call.insert d).answer r.stored = .ok ()) {n : String} {e : Definition}
    (he : r.get? n = some e) : (r.extend (.insert d)).get? n = some e := by
  obtain ⟨hstored, hname⟩ := (h.get?_eq_some_iff n).mp he
  obtain ⟨c, hmem⟩ := Registry.mem_stored.mp hstored
  refine ((h.extend hok).get?_eq_some_iff n).mpr ⟨Registry.mem_stored.mpr ⟨c, ?_⟩, hname⟩
  rw [r.extend_insert_listed]
  exact List.mem_append_left _ hmem

section Grown

variable {l' : Layout} (h : r.WellFormed) (hok : (Call.insert d).answer r.stored = .ok ())
  (hl : Layout.assign r.catalogue = .ok l)
  (hl' : Layout.assign (r.extend (.insert d)).catalogue = .ok l')
  (hd : d.category.bearsCode = true)
include hd

theorem Registry.length_under_earlier (r : Registry) (c : Category) :
    ((r.extend (.insert d)).catalogue.under c.earlier).length =
      (r.catalogue.under c.earlier).length +
        if d.category.position < c.position then 1 else 0 := by
  simp only [length_under_insert r d c.nodup_earlier, Category.mem_earlier hd]

include hl hl'

theorem Layout.range?_insert {c : Category} (hc : c.bearsCode = true) :
    ∃ range range', l.range? c = some range ∧ l'.range? c = some range' ∧
      range'.first.toNat =
        range.first.toNat + (if d.category.position < c.position then 1 else 0) ∧
      range'.last.toNat =
        range.last.toNat + if d.category.position ≤ c.position then 1 else 0 := by
  have hbound := earlier_add_listed_lt hl hc
  have hbound' := earlier_add_listed_lt hl' hc
  have hlength : ((r.extend (.insert d)).catalogue.listed c).length =
      (r.catalogue.listed c).length + if d.category = c then 1 else 0 :=
    r.length_listed_insert d c
  refine ⟨_, _, range?_eq_span hl hc, range?_eq_span hl' hc, ?_, ?_⟩
  · rw [span_first_toNat (by omega), span_first_toNat (by omega),
      Registry.length_under_earlier hd, Nat.add_assoc]
  · rw [span_last_toNat hbound, span_last_toNat hbound', Registry.length_under_earlier hd, hlength]
    have hcategory : d.category = c ↔ d.category.position = c.position :=
      ⟨congrArg Category.position, Category.position_injective⟩
    simp only [hcategory]
    split_ifs <;> omega

include h hok

theorem Layout.codeOf?_new : ∃ range code, l.range? d.category = some range ∧
    l'.codeOf? d.name = some code ∧ code.toNat = range.last.toNat + 1 := by
  have hbound := earlier_add_listed_lt hl hd
  have hlast : ((r.extend (.insert d)).listed d.category)[(r.listed d.category).length]? =
      some d := by
    rw [r.listed_own]
    exact List.getElem?_concat_length
  obtain ⟨code, hcode, hnat⟩ := exists_codeOf? (h.extend hok) hl' hd hlast
  refine ⟨_, code, range?_eq_span hl hd, hcode, ?_⟩
  rw [hnat, Registry.length_under_earlier hd, if_neg (Nat.lt_irrefl _), span_last_toNat hbound]
  change _ = 1 + _ + (r.listed d.category).length - 1 + 1
  omega

theorem Layout.codeOf?_old {n : String} {e : Definition} (he : r.get? n = some e)
    (hc : e.category.bearsCode = true) :
    ∃ code code', l.codeOf? n = some code ∧ l'.codeOf? n = some code' ∧
      code'.toNat =
        code.toNat + if d.category.position < e.category.position then 1 else 0 := by
  obtain ⟨hstored, rfl⟩ := (h.get?_eq_some_iff n).mp he
  obtain ⟨c, hmem⟩ := Registry.mem_stored.mp hstored
  obtain rfl := h.category_eq c e hmem
  obtain ⟨j, hj⟩ := List.mem_iff_getElem?.mp hmem
  have hj' : ((r.extend (.insert d)).listed e.category)[j]? = some e := by
    rw [r.extend_insert_listed, List.getElem?_append_left (List.getElem?_eq_some_iff.mp hj).1, hj]
  obtain ⟨code, hcode, hnat⟩ := exists_codeOf? h hl hc hj
  obtain ⟨code', hcode', hnat'⟩ := exists_codeOf? (h.extend hok) hl' hc hj'
  refine ⟨code, code', hcode, hcode', ?_⟩
  rw [hnat, hnat', Registry.length_under_earlier hd]
  omega

omit hd

/-- Before and after, the table has the byte of the attribute at its code. -/
theorem PropertyTable.get?_old {t t' : PropertyTable} (ht : build r.catalogue = .ok t)
    (ht' : build (r.extend (.insert d)).catalogue = .ok t') {n : String} {e : Definition}
    (he : r.get? n = some e) (hc : e.category.bearsCode = true) {code code' : Code}
    (hcode : l.codeOf? n = some code) (hcode' : l'.codeOf? n = some code') :
    t'.get? code' = t.get? code := by
  obtain ⟨_, hfound, -, -, hbyte⟩ := Registry.exists_code_of_get? h hl ht he hc
  obtain ⟨_, hfound', -, -, hbyte'⟩ :=
    Registry.exists_code_of_get? (h.extend hok) hl' ht' (h.get?_insert hok he) hc
  obtain rfl := Option.some.inj (hcode.symm.trans hfound)
  obtain rfl := Option.some.inj (hcode'.symm.trans hfound')
  rw [hbyte, hbyte']

end Grown

/-- An attribute without a code changes no code and no byte. Any other one gets the code after the last
one of its category; the codes and bytes of the attributes up to its category stay as they are, and all
later codes and ends of ranges move on by one, together with their bytes. -/
theorem Registry.insert_shifts_later (calls : List Call) {r' : Registry} {t t' : PropertyTable}
    (hinsert : (Registry.insert d).result (Registry.ofCalls calls) = .ok r')
    (hsize : r'.catalogue.codeBearing.length ≤ UInt32.size - 2)
    (ht : PropertyTable.build (Registry.ofCalls calls).catalogue = .ok t)
    (ht' : PropertyTable.build r'.catalogue = .ok t') :
    let r := Registry.ofCalls calls
    ∃ l l', Layout.assign r.catalogue = .ok l ∧ Layout.assign r'.catalogue = .ok l' ∧
      (d.category.bearsCode = false → l' = l ∧ t' = t) ∧
      (d.category.bearsCode = true →
        (∃ range code, l.range? d.category = some range ∧ l'.codeOf? d.name = some code ∧
          code.toNat = range.last.toNat + 1) ∧
        (∀ n e, r.get? n = some e → e.category.bearsCode = true →
          ∃ code code', l.codeOf? n = some code ∧ l'.codeOf? n = some code' ∧
            code'.toNat =
              code.toNat + (if d.category.position < e.category.position then 1 else 0) ∧
            t'.get? code' = t.get? code) ∧
        ∀ c, c.bearsCode = true →
          ∃ range range', l.range? c = some range ∧ l'.range? c = some range' ∧
            range'.first.toNat =
              range.first.toNat + (if d.category.position < c.position then 1 else 0) ∧
            range'.last.toNat =
              range.last.toNat + (if d.category.position ≤ c.position then 1 else 0)) := by
  intro r
  have h : r.WellFormed := wellFormed_ofCalls calls
  obtain ⟨hok, rfl⟩ : (Call.insert d).answer r.stored = .ok () ∧ r' = r.extend (.insert d) :=
    h.result_eq_ok_iff.mp hinsert
  have hgrows : r.catalogue.codeBearing.length ≤
      (r.extend (.insert d)).catalogue.codeBearing.length := by
    rw [← Catalogue.length_placed, ← Catalogue.length_placed, Catalogue.placed, Catalogue.placed,
      r.length_under_insert d Layout.codeBearing_nodup]
    exact Nat.le_add_right _ _
  obtain ⟨l, hl⟩ := Layout.exists_assign_iff.mpr (hgrows.trans hsize)
  obtain ⟨l', hl'⟩ := Layout.exists_assign_iff.mpr hsize
  refine ⟨l, l', hl, hl', fun hd => ?_, fun hd => ⟨Layout.codeOf?_new h hok hl hl' hd, ?_,
    fun c hc => Layout.range?_insert hl hl' hd hc⟩⟩
  · have hlisted := r.listed_of_uncoded hd
    have hlayout : Layout.assign (r.extend (.insert d)).catalogue = Layout.assign r.catalogue :=
      Layout.assign_congr hlisted
    have htable : PropertyTable.build (r.extend (.insert d)).catalogue =
        PropertyTable.build r.catalogue :=
      PropertyTable.build_congr hlisted
    rw [hl, hl'] at hlayout
    rw [ht, ht'] at htable
    exact ⟨Except.ok.inj hlayout, Except.ok.inj htable⟩
  · intro n e he hc
    obtain ⟨code, code', hcode, hcode', hnat⟩ := Layout.codeOf?_old h hok hl hl' hd he hc
    exact ⟨code, code', hcode, hcode', hnat,
      PropertyTable.get?_old h hok hl hl' ht ht' he hc hcode hcode'⟩

/-- A new integer attribute, between the attributes without a value and one with a range; the categories
on both sides of its own are empty or not. -/
theorem Registry.insert_shifts_later_between :
    let calls : List Call := [.insert ⟨"Range", .constantRange, "range", [⟨4⟩]⟩,
      .insert ⟨"Hot", .enum, "hot", [⟨1⟩]⟩, .insert ⟨"Text", .strBool, "text", []⟩]
    let r := Registry.ofCalls calls
    let d : Definition := ⟨"Align", .int, "align", [⟨32⟩, ⟨2⟩]⟩
    let r' := r.extend (.insert d)
    let t : PropertyTable := ⟨[⟨"Hot", .enum, [⟨1⟩], ⟨1⟩⟩, ⟨"Range", .constantRange, [⟨4⟩], ⟨4⟩⟩]⟩
    let t' : PropertyTable := ⟨[⟨"Hot", .enum, [⟨1⟩], ⟨1⟩⟩, ⟨"Align", .int, [⟨32⟩, ⟨2⟩], ⟨34⟩⟩,
      ⟨"Range", .constantRange, [⟨4⟩], ⟨4⟩⟩]⟩
    (Registry.insert d).result r = .ok r' ∧
    r'.catalogue.codeBearing.length ≤ UInt32.size - 2 ∧
    PropertyTable.build r.catalogue = .ok t ∧ PropertyTable.build r'.catalogue = .ok t' ∧
    ∃ l l', Layout.assign r.catalogue = .ok l ∧ Layout.assign r'.catalogue = .ok l' ∧
      (∃ code code', l.codeOf? "Range" = some code ∧ l'.codeOf? "Range" = some code' ∧
        code'.toNat = code.toNat + 1 ∧ t'.get? code' = t.get? code) ∧
      ∃ range range', l.range? .enum = some range ∧ l'.range? .enum = some range' ∧
        range'.first.toNat = range.first.toNat ∧ range'.last.toNat = range.last.toNat := by
  intro calls r d r' t t'
  have hanswer : (Call.insert d).answer r.stored = .ok () := by
    rw [Call.answer, if_neg (by decide), if_neg (by decide), if_neg (by decide)]
  have hinsert : (Call.insert d).step.result r = .ok r' :=
    (wellFormed_ofCalls calls).result_eq_ok_iff.mpr ⟨hanswer, rfl⟩
  have hsize : r'.catalogue.codeBearing.length ≤ UInt32.size - 2 := by decide
  have ht : PropertyTable.build r.catalogue = .ok t := rfl
  have ht' : PropertyTable.build r'.catalogue = .ok t' := rfl
  obtain ⟨l, l', hl, hl', -, hcoded⟩ := Registry.insert_shifts_later calls hinsert hsize ht ht'
  obtain ⟨-, hold, hranges⟩ := hcoded rfl
  exact ⟨hinsert, hsize, ht, ht', l, l', hl, hl', hold "Range" _ rfl rfl, hranges .enum rfl⟩

end AttributeTables
