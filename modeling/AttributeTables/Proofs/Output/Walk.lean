import AttributeTables.Proofs.Output.Brackets
import AttributeTables.Proofs.Output.Selections

/-!
# The walk over the entries

The enumerators are written in one walk over all entries: each bracket takes entries from the front
as long as they are of its category. If entries of different categories were mixed, the walk would
get stuck before one of them and lose it with all that follow. In a layout they are not, so the walk
writes what a loop over categories with a loop over their attributes inside writes, and nothing is
left at its end.
-/

namespace AttributeTables.Output

variable {k : Catalogue}

/-! ## Walks -/

/-- A bracket with the entries that are written between its markers. -/
structure Enclosure where
  category : Category
  range : CodeRange
  entries : List CodeEntry
  deriving DecidableEq

/-- The lines of the bracket. -/
def Enclosure.lines (b : Enclosure) : List String :=
  enumerator (firstMarker b.category) b.range.first ::
    b.entries.map (fun e => enumerator e.name e.code) ++
    [enumerator (lastMarker b.category) b.range.last]

/-- Where a walk stands: the brackets behind it, and the entries ahead of it. -/
structure Walk where
  closed : List Enclosure
  ahead : List CodeEntry
  deriving DecidableEq

/-- Writes the next bracket. It takes the entries at the front that belong to the category. -/
def Walk.enclose (w : Walk) (p : Category × CodeRange) : Walk :=
  ⟨w.closed ++ [⟨p.1, p.2, w.ahead.takeWhile (·.category == p.1)⟩],
    w.ahead.dropWhile (·.category == p.1)⟩

/-- The walk over the ranges and the entries of a layout. -/
def walk (l : Layout) : Walk := l.ranges.foldl Walk.enclose ⟨[], l.entries⟩

/-- The lines behind a walk are those that are written for the ranges, whatever the entries are. -/
theorem lines_foldl_enclose (ranges : List (Category × CodeRange)) (w : Walk) :
    (ranges.foldl Walk.enclose w).closed.flatMap Enclosure.lines =
      w.closed.flatMap Enclosure.lines ++ bracketLines ranges w.ahead := by
  induction ranges generalizing w with
  | nil => rw [List.foldl_nil, bracketLines, List.append_nil]
  | cons p ranges ih =>
      rw [List.foldl_cons, ih, Walk.enclose, List.flatMap_append, List.flatMap_singleton,
        List.append_assoc, bracketLines]
      simp [Enclosure.lines]

theorem lines_walk (l : Layout) :
    (walk l).closed.flatMap Enclosure.lines = bracketLines l.ranges l.entries :=
  lines_foldl_enclose l.ranges ⟨[], l.entries⟩

/-! ## Walks over numbered attributes -/

/-- The brackets of categories whose attributes are numbered from `n` on. -/
def enclosuresFrom (k : Catalogue) : List Category → Nat → List Enclosure
  | [], _ => []
  | c :: cs, n =>
    ⟨c, Layout.span n (k.listed c).length, Layout.entriesFrom ((k.listed c).map (c, ·)) n⟩ ::
      enclosuresFrom k cs (n + (k.listed c).length)

/-- One bracket takes the entries of its category and leaves all others ahead. -/
theorem enclose_entriesFrom {c : Category} {cs : List Category} (hc : c ∉ cs)
    (closed : List Enclosure) (n : Nat) (range : CodeRange) :
    Walk.enclose ⟨closed, Layout.entriesFrom (k.under (c :: cs)) n⟩ (c, range) =
      ⟨closed ++ [⟨c, range, Layout.entriesFrom ((k.listed c).map (c, ·)) n⟩],
        Layout.entriesFrom (k.under cs) (n + (k.listed c).length)⟩ := by
  rw [Walk.enclose, Layout.takeWhile_entriesFrom hc, Layout.dropWhile_entriesFrom hc]

/-- The walk keeps pace with the ranges, so at their end no entry is ahead. -/
theorem foldl_enclose_entriesFrom {cs : List Category} (hcs : cs.Nodup) (closed : List Enclosure)
    (n : Nat) :
    (Layout.rangesFrom k cs n).foldl Walk.enclose ⟨closed, Layout.entriesFrom (k.under cs) n⟩ =
      ⟨closed ++ enclosuresFrom k cs n, []⟩ := by
  induction cs generalizing closed n with
  | nil => simp [Layout.rangesFrom, enclosuresFrom]
  | cons c cs ih =>
      obtain ⟨hc, hcs⟩ := List.nodup_cons.mp hcs
      rw [Layout.rangesFrom, List.foldl_cons, enclose_entriesFrom hc, ih hcs, enclosuresFrom,
        List.append_assoc, List.singleton_append]

theorem walk_of_assign {l : Layout} (h : Layout.assign k = .ok l) :
    walk l = ⟨enclosuresFrom k Category.codeBearing 1, []⟩ := by
  rw [walk, Layout.ranges_of_assign h, Layout.entries_of_assign h, Catalogue.placed,
    foldl_enclose_entriesFrom Layout.codeBearing_nodup, List.nil_append]

/-! ## What the brackets hold -/

theorem map_range_enclosuresFrom (k : Catalogue) (cs : List Category) (n : Nat) :
    (enclosuresFrom k cs n).map (fun b => (b.category, b.range)) = Layout.rangesFrom k cs n := by
  induction cs generalizing n with
  | nil => rfl
  | cons c cs ih => rw [enclosuresFrom, List.map_cons, ih, Layout.rangesFrom]

theorem flatMap_entries_enclosuresFrom (k : Catalogue) (cs : List Category) (n : Nat) :
    (enclosuresFrom k cs n).flatMap (·.entries) = Layout.entriesFrom (k.under cs) n := by
  induction cs generalizing n with
  | nil => rfl
  | cons c cs ih =>
      rw [enclosuresFrom, List.flatMap_cons, ih, Layout.entriesFrom_under_cons]

theorem category_of_mem_enclosuresFrom {cs : List Category} {n : Nat} {b : Enclosure}
    (hb : b ∈ enclosuresFrom k cs n) : ∀ e ∈ b.entries, e.category = b.category := by
  induction cs generalizing n with
  | nil => cases hb
  | cons c cs ih =>
      rcases List.mem_cons.mp hb with rfl | hb
      · exact fun e he => Layout.category_eq_of_mem_entriesFrom he
      · exact ih hb

/-! ## Nested loops -/

/-- The brackets of categories whose attributes are numbered from `n` on, written category by
category and attribute by attribute. -/
def nestedLines (k : Catalogue) : List Category → Nat → List String
  | [], _ => []
  | c :: cs, n =>
    definitionLine (firstMarker c) n :: (numbered (k.listed c) n ++
      definitionLine (lastMarker c) (n + (k.listed c).length - 1) ::
        nestedLines k cs (n + (k.listed c).length))

theorem bracketLines_eq_nestedLines {cs : List Category} (hcs : cs.Nodup) {n : Nat}
    (hbound : n + (k.under cs).length < UInt32.size) :
    bracketLines (Layout.rangesFrom k cs n) (Layout.entriesFrom (k.under cs) n) =
      nestedLines k cs n := by
  induction cs generalizing n with
  | nil => rfl
  | cons c cs ih =>
      have hlen := k.length_under_cons c cs
      obtain ⟨hc, hcs⟩ := List.nodup_cons.mp hcs
      rw [bracketLines_cons hc hbound, ih hcs (by omega), nestedLines]

/-! ## The section of a catalogue -/

/-- The one walk over the entries writes the same section as the nested loops, for every catalogue
whose codes fit. Behind the walk there is one bracket for each range, no entry is ahead of it, and
the brackets hold each code once, in the bracket of its category. -/
theorem enumerators_eq_nested (k : Catalogue) (style : Style)
    (hsize : k.codeBearing.length ≤ UInt32.size - 2) :
    sectionText k style .enumerators =
      .ok (Text.unlines (["#ifdef GET_ATTR_ENUM", "#undef GET_ATTR_ENUM"] ++
        nestedLines k Category.codeBearing 1 ++ ["#endif", ""])) ∧
    ∃ l, Layout.assign k = .ok l ∧
      (walk l).closed.flatMap Enclosure.lines = nestedLines k Category.codeBearing 1 ∧
      (walk l).ahead = [] ∧
      (walk l).closed.map (fun b => (b.category, b.range)) = l.ranges ∧
      (walk l).closed.flatMap (·.entries) = l.entries ∧
      ((walk l).closed.flatMap (·.entries)).map (·.code.toNat) =
        List.range' 1 k.codeBearing.length ∧
      ∀ b ∈ (walk l).closed, ∀ e ∈ b.entries,
        e.category = b.category ∧ b.range.contains e.code = true := by
  obtain ⟨l, h⟩ := Layout.exists_assign_iff.mpr hsize
  have hbound := Layout.placed_lt_of_assign h
  have hnested : bracketLines l.ranges l.entries = nestedLines k Category.codeBearing 1 := by
    rw [Layout.ranges_of_assign h, Layout.entries_of_assign h]
    exact bracketLines_eq_nestedLines Layout.codeBearing_nodup hbound
  have hwalk := walk_of_assign h
  have hranges : (walk l).closed.map (fun b => (b.category, b.range)) = l.ranges := by
    rw [hwalk, map_range_enclosuresFrom, Layout.ranges_of_assign h]
  have hentries : (walk l).closed.flatMap (·.entries) = l.entries := by
    rw [hwalk, flatMap_entries_enclosuresFrom, Layout.entries_of_assign h, Catalogue.placed]
  refine ⟨?_, l, h, by rw [lines_walk, hnested], by rw [hwalk], hranges, hentries, ?_, ?_⟩
  · rw [sectionText_enumerators h, enumeratorsLines, hnested]
    rfl
  · rw [hentries, Layout.entries_of_assign h, Layout.map_code_entriesFrom _ hbound, k.length_placed]
  · intro b hb e he
    have hcategory : e.category = b.category :=
      category_of_mem_enclosuresFrom (hwalk ▸ hb) e he
    refine ⟨hcategory, ?_⟩
    have hrange : (b.category, b.range) ∈ l.ranges := hranges ▸ List.mem_map_of_mem hb
    have hentry : e ∈ l.entries := hentries ▸ List.mem_flatMap_of_mem hb he
    exact (Layout.contains_iff_exists_entry h hrange e.code).mpr ⟨e, hentry, rfl, hcategory⟩

/-- Attributes that share a name which is no identifier, listed under other categories than their
own, with an empty category before, between and after them. -/
theorem enumerators_eq_nested_unchecked :
    let twice : List Definition := [⟨"two words", .enum, "", []⟩, ⟨"two words", .enum, "", []⟩]
    let k : Catalogue := ⟨fun c => if c = .type ∨ c = .constantRange then twice else [], [], []⟩
    let brackets : List String :=
      ["FirstEnumAttr = 1,", "LastEnumAttr = 0,",
        "FirstTypeAttr = 1,", "two words = 1,", "two words = 2,", "LastTypeAttr = 2,",
        "FirstIntAttr = 3,", "LastIntAttr = 2,",
        "FirstConstantRangeAttr = 3,", "two words = 3,", "two words = 4,",
        "LastConstantRangeAttr = 4,",
        "FirstConstantRangeListAttr = 5,", "LastConstantRangeListAttr = 4,"]
    k.codeBearing.length ≤ UInt32.size - 2 ∧ nestedLines k Category.codeBearing 1 = brackets ∧
    sectionText k .numeric .enumerators =
      .ok (Text.unlines (["#ifdef GET_ATTR_ENUM", "#undef GET_ATTR_ENUM"] ++ brackets ++
        ["#endif", ""])) ∧
    ∃ l, Layout.assign k = .ok l ∧ (walk l).ahead = [] := by
  intro twice k brackets
  have hsize : k.codeBearing.length ≤ UInt32.size - 2 := by decide
  have hnested : nestedLines k Category.codeBearing 1 = brackets := by decide
  obtain ⟨htext, l, hl, -, hahead, -⟩ := enumerators_eq_nested k .numeric hsize
  exact ⟨hsize, hnested, hnested ▸ htext, l, hl, hahead⟩

end AttributeTables.Output
