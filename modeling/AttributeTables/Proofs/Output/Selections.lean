import AttributeTables.Output
import AttributeTables.Proofs.Layout.Partition

/-!
# Whole texts and selections of sections

The whole text is written from one layout and one table. A selection checks the table first, and
then each of its sections builds what it needs once more. Both agree on the text, and on the
conflict that prevents it.
-/

namespace AttributeTables.Output

variable {k : Catalogue} {l : Layout} {t : PropertyTable} {style : Style} {selected : List Section}

/-! ## Single sections -/

theorem layout_of_assign (hl : Layout.assign k = .ok l) : layout k = .ok l := by
  rw [layout, hl]
  rfl

theorem table_of_build (ht : PropertyTable.build k = .ok t) : table k = .ok t := by
  rw [table, ht]
  rfl

theorem table_of_conflict {e : Conflict} (he : PropertyTable.build k = .error e) :
    table k = .error (.conflict e) := by
  rw [table, he]
  rfl

theorem sectionText_enumerators (hl : Layout.assign k = .ok l) :
    sectionText k style .enumerators = .ok (Text.unlines (enumeratorsLines l)) := by
  rw [sectionText, sectionLines, layout_of_assign hl]
  rfl

theorem sectionText_properties (ht : PropertyTable.build k = .ok t) :
    sectionText k style .properties = .ok (Text.unlines (propertiesLines style t)) := by
  rw [sectionText, sectionLines, table_of_build ht]
  rfl

theorem sectionText_enumerators_eq_ok_iff {text : String} :
    sectionText k style .enumerators = .ok text ↔
      ∃ l, Layout.assign k = .ok l ∧ text = Text.unlines (enumeratorsLines l) := by
  constructor
  · intro htext
    cases hl : Layout.assign k with
    | ok l => exact ⟨l, rfl, Except.ok.inj (htext.symm.trans (sectionText_enumerators hl))⟩
    | error o =>
        rw [sectionText, sectionLines, layout, hl] at htext
        cases htext
  · rintro ⟨l, hl, rfl⟩
    exact sectionText_enumerators hl

/-- The texts of the sections, all of them from one layout and one table. -/
def textFrom (k : Catalogue) (style : Style) (l : Layout) (t : PropertyTable) : Section → String
  | .names => Text.unlines (namesLines k)
  | .enumerators => Text.unlines (enumeratorsLines l)
  | .functions => Text.unlines (functionsLines k)
  | .properties => Text.unlines (propertiesLines style t)

/-- Only the property table can be refused. -/
theorem sectionText_eq_textFrom (hl : Layout.assign k = .ok l) {s : Section}
    (ht : s = .properties → PropertyTable.build k = .ok t) :
    sectionText k style s = .ok (textFrom k style l t s) := by
  cases s with
  | names => rfl
  | enumerators => exact sectionText_enumerators hl
  | functions => rfl
  | properties => exact sectionText_properties (ht rfl)

/-! ## Selections -/

theorem sectionTexts_eq_ok {text : Section → String} {sections : List Section}
    (htext : ∀ s ∈ sections, sectionText k style s = .ok (text s)) :
    sectionTexts k style sections = .ok (String.join (sections.map text)) := by
  induction sections with
  | nil => rfl
  | cons s sections ih =>
      obtain ⟨hs, hsections⟩ := List.forall_mem_cons.mp htext
      rw [sectionTexts, hs, ih hsections, List.map_cons, String.join_cons]
      rfl

theorem filter_contains (selected : List Section) :
    Section.all.filter selected.contains = Section.all.filter (· ∈ selected) :=
  List.filter_congr fun s _ => List.contains_eq_mem s selected

/-- If each selected section has a text, the selection has their concatenation. -/
theorem generateSections_eq_ok {text : Section → String}
    (htext : ∀ s ∈ selected, sectionText k style s = .ok (text s)) :
    generateSections k style selected =
      .ok (String.join ((Section.all.filter (· ∈ selected)).map text)) := by
  have htexts : sectionTexts k style (Section.all.filter (· ∈ selected)) =
      .ok (String.join ((Section.all.filter (· ∈ selected)).map text)) :=
    sectionTexts_eq_ok fun s hs => htext s (of_decide_eq_true (List.mem_filter.mp hs).2)
  rw [generateSections, filter_contains, htexts]
  by_cases hmem : Section.properties ∈ selected
  · -- The text of the property table tells that the check before it succeeds.
    have hproperties := htext .properties hmem
    cases ht : PropertyTable.build k with
    | ok t =>
        rw [table_of_build ht, if_pos (List.contains_iff_mem.mpr hmem)]
        rfl
    | error e =>
        rw [sectionText, sectionLines, table_of_conflict ht] at hproperties
        cases hproperties
  · rw [if_neg (mt List.contains_iff_mem.mp hmem)]

theorem generateSections_eq_error {e : Conflict} (he : PropertyTable.build k = .error e)
    (hmem : .properties ∈ selected) :
    generateSections k style selected = .error (.conflict e) := by
  rw [generateSections, if_pos (List.contains_iff_mem.mpr hmem), table_of_conflict he]
  rfl

/-- Neither order nor repetition counts in a selection. -/
theorem generateSections_congr {selected' : List Section}
    (h : ∀ s, s ∈ selected ↔ s ∈ selected') :
    generateSections k style selected = generateSections k style selected' := by
  have hcontains : selected.contains = selected'.contains := by
    funext s
    rw [Bool.eq_iff_iff, List.contains_iff_mem, List.contains_iff_mem, h]
  rw [generateSections, generateSections, hcontains]

/-! ## The whole text -/

theorem unlines_headerLines (options : Options) :
    Text.unlines (headerLines options) =
      if options.header then Text.unlines (bannerLines options) else "" := by
  rw [headerLines, apply_ite Text.unlines]
  rfl

/-- The whole text is the banner and the four sections. -/
theorem generate_eq_ok (options : Options) (hl : Layout.assign k = .ok l)
    (ht : PropertyTable.build k = .ok t) :
    generate k options = .ok ((if options.header then Text.unlines (bannerLines options) else "") ++
      textFrom k options.style l t .names ++ textFrom k options.style l t .enumerators ++
      textFrom k options.style l t .functions ++ textFrom k options.style l t .properties) := by
  rw [generate, layout_of_assign hl, table_of_build ht, ← unlines_headerLines]
  simp only [textFrom, ← Text.unlines_append]
  rfl

theorem generate_eq_error (options : Options) {e : Conflict} (hl : Layout.assign k = .ok l)
    (he : PropertyTable.build k = .error e) : generate k options = .error (.conflict e) := by
  rw [generate, layout_of_assign hl, table_of_conflict he]
  rfl

/-- Behind the banner stands the selection of all sections. -/
theorem exists_sections_of_generate {options : Options} {text : String}
    (h : generate k options = .ok text) :
    ∃ sections, generateSections k options.style Section.all = .ok sections ∧
      text = Text.unlines (headerLines options) ++ sections := by
  cases hl : Layout.assign k with
  | error o =>
      rw [generate, layout, hl] at h
      cases h
  | ok l =>
      cases ht : PropertyTable.build k with
      | error e => cases (generate_eq_error options hl ht).symm.trans h
      | ok t =>
          have hselection : generateSections k options.style Section.all =
              .ok (String.join ((Section.all.filter (· ∈ Section.all)).map
                (textFrom k options.style l t))) :=
            generateSections_eq_ok fun s _ => sectionText_eq_textFrom hl fun _ => ht
          refine ⟨_, hselection, ?_⟩
          rw [generate_eq_ok options hl ht, ← unlines_headerLines, Except.ok.injEq] at h
          rw [← h]
          simp [Section.all, String.append_assoc]

/-- The whole text, the selections and the single sections agree. A conflict refuses the whole text
and exactly the selections with the property table; without one, each selection is the concatenation
of its sections in a fixed order, and the whole text is the banner and all four. -/
theorem generation_agrees (k : Catalogue) (options : Options)
    (hsize : k.codeBearing.length ≤ UInt32.size - 2) :
    (∀ e, PropertyTable.build k = .error e →
      generate k options = .error (.conflict e) ∧
      ∀ selected,
        (.properties ∈ selected →
          generateSections k options.style selected = .error (.conflict e)) ∧
        (.properties ∉ selected →
          ∃ text, generateSections k options.style selected = .ok text)) ∧
    (∀ t, PropertyTable.build k = .ok t →
      ∃ text : Section → String,
        (∀ s, sectionText k options.style s = .ok (text s)) ∧
        generate k options =
          .ok ((if options.header then Text.unlines (bannerLines options) else "") ++
            text .names ++ text .enumerators ++ text .functions ++ text .properties) ∧
        (∀ selected, generateSections k options.style selected =
          .ok (String.join
            (([.names, .enumerators, .functions, .properties].filter (· ∈ selected)).map text))) ∧
        ∃ whole, generateSections k options.style [.names, .enumerators, .functions, .properties] =
            .ok whole ∧
          generate k options =
            .ok ((if options.header then Text.unlines (bannerLines options) else "") ++ whole)) ∧
    ∀ selected selected' : List Section, (∀ s, s ∈ selected ↔ s ∈ selected') →
      generateSections k options.style selected = generateSections k options.style selected' := by
  obtain ⟨l, hl⟩ := Layout.exists_assign_iff.mpr hsize
  refine ⟨fun e he => ⟨generate_eq_error options hl he, fun selected => ⟨?_, fun hmem => ?_⟩⟩,
    fun t ht => ?_, fun selected selected' h => generateSections_congr h⟩
  · exact generateSections_eq_error he
  · -- No row of a table is written, so any table does.
    have htext : ∀ s ∈ selected,
        sectionText k options.style s = .ok (textFrom k options.style l ⟨[]⟩ s) :=
      fun s hs => sectionText_eq_textFrom hl fun heq => absurd (heq ▸ hs) hmem
    exact ⟨_, generateSections_eq_ok htext⟩
  · have htext : ∀ s, sectionText k options.style s = .ok (textFrom k options.style l t s) :=
      fun s => sectionText_eq_textFrom hl fun _ => ht
    have hselection : ∀ selected, generateSections k options.style selected = .ok (String.join
        (([.names, .enumerators, .functions, .properties].filter (· ∈ selected)).map
          (textFrom k options.style l t))) :=
      fun selected => generateSections_eq_ok fun s _ => htext s
    refine ⟨_, htext, generate_eq_ok options hl ht, hselection, _, hselection _, ?_⟩
    rw [generate_eq_ok options hl ht]
    simp [String.append_assoc]

/-- The attribute of the first catalogue is listed under another category than its own, and its name
is no identifier. The second catalogue has a conflict. -/
theorem generation_agrees_unchecked :
    let listed (c : Category) : List Definition :=
      if c = .enum then [⟨"two words", .int, "", [⟨32⟩, ⟨2⟩]⟩] else []
    let sound : Catalogue := ⟨listed, [⟨"check", none⟩], []⟩
    let conflicting : Catalogue := ⟨fun _ => [⟨"A", .enum, "a", [⟨48⟩]⟩], [], []⟩
    let options : Options := { style := .symbolic, header := false }
    sound.codeBearing.length ≤ UInt32.size - 2 ∧ conflicting.codeBearing.length ≤ UInt32.size - 2 ∧
    (∃ text : Section → String,
      (∀ s, sectionText sound .symbolic s = .ok (text s)) ∧
      generate sound options =
        .ok ("" ++ text .names ++ text .enumerators ++ text .functions ++ text .properties) ∧
      generateSections sound .symbolic [.properties, .names, .properties] =
        .ok (String.join [text .names, text .properties])) ∧
    generate conflicting options = .error (.conflict ⟨"A", ⟨32⟩, .int, .enum⟩) ∧
    generateSections conflicting .symbolic [.names, .properties] =
      .error (.conflict ⟨"A", ⟨32⟩, .int, .enum⟩) ∧
    ∃ text, generateSections conflicting .symbolic [.functions, .names] = .ok text := by
  intro listed sound conflicting options
  have hsound : sound.codeBearing.length ≤ UInt32.size - 2 := by decide
  have hconflicting : conflicting.codeBearing.length ≤ UInt32.size - 2 := by decide
  have ht : PropertyTable.build sound =
      .ok ⟨[⟨"two words", .int, [⟨32⟩, ⟨2⟩], ⟨34⟩⟩]⟩ := rfl
  have he : PropertyTable.build conflicting = .error ⟨"A", ⟨32⟩, .int, .enum⟩ := rfl
  obtain ⟨text, htext, hwhole, hselection, -⟩ := (generation_agrees sound options hsound).2.1 _ ht
  obtain ⟨hgenerate, hselections⟩ := (generation_agrees conflicting options hconflicting).1 _ he
  refine ⟨hsound, hconflicting, ⟨text, htext, hwhole, hselection _⟩, hgenerate, ?_, ?_⟩
  · exact (hselections _).1 (by decide)
  · exact (hselections _).2 (by decide)

end AttributeTables.Output
