import AttributeTables.Proofs.Output.Blocks
import AttributeTables.Proofs.Output.Selections
import AttributeTables.Proofs.Registry.History

/-!
# Repeated inclusions

A selection of sections is included again and again, and between the inclusions the consumer defines
macros. An inclusion keeps exactly the selected blocks whose symbols it finds, and uses these symbols
up.
-/

namespace AttributeTables.Output

open Preprocessor

variable {α : Type} {k : Catalogue} {l : Layout} {t : PropertyTable} {style : Style}

/-! ## The lines of a selection -/

def linesFrom (k : Catalogue) (style : Style) (l : Layout) (t : PropertyTable) :
    Section → List String
  | .names => namesLines k
  | .enumerators => enumeratorsLines l
  | .functions => functionsLines k
  | .properties => propertiesLines style t

theorem textFrom_eq_unlines (sec : Section) :
    textFrom k style l t sec = Text.unlines (linesFrom k style l t sec) := by
  cases sec <;> rfl

theorem join_textFrom (sections : List Section) :
    String.join (sections.map (textFrom k style l t)) =
      Text.unlines (sections.flatMap (linesFrom k style l t)) := by
  induction sections with
  | nil => rfl
  | cons sec sections ih =>
      rw [List.map_cons, String.join_cons, ih, textFrom_eq_unlines, List.flatMap_cons,
        Text.unlines_append]

section Registry

variable {r : Registry} (h : r.WellFormed) (hl : Layout.assign r.catalogue = .ok l)
include h hl

theorem isLine_of_mem_linesFrom {sec : Section} (hsec : sec ≠ .functions) :
    ∀ line ∈ linesFrom r.catalogue style l t sec, Text.IsLine line := by
  cases sec with
  | names => exact isLine_of_mem_namesLines_registry h
  | enumerators => exact isLine_of_mem_enumeratorsLines h hl
  | functions => exact absurd rfl hsec
  | properties => exact isLine_of_mem_propertiesLines style t

theorem isBlock_linesFrom {sec : Section} (hsec : sec ≠ .functions) :
    IsBlock α sec (linesFrom r.catalogue style l t sec) := by
  cases sec with
  | names => exact isBlock_namesLines r.catalogue
  | enumerators => exact isBlock_enumeratorsLines (isIdentifier_of_mem_entries h hl)
  | functions => exact absurd rfl hsec
  | properties => exact isBlock_propertiesLines style t

end Registry

/-! ## One inclusion -/

/-- Whether the block is kept or skipped, the symbols of the other sections are left alone. -/
theorem IsBlock.exists_run {sec : Section} {lines : List String} (h : IsBlock α sec lines)
    {s : State α} (hs : s.isActive = true) :
    ∃ t, s.run lines = some t ∧ t.conditions = s.conditions ∧
      t.keptLines = s.keptLines ++ (if s.isDefined sec.toggle then textLines lines else []) ∧
      t.isDefined sec.toggle = false ∧
      ∀ other ≠ sec, t.isDefined other.toggle = s.isDefined other.toggle := by
  cases hdefined : s.isDefined sec.toggle with
  | false => exact ⟨s, h.skipped s hdefined, rfl, by simp, hdefined, fun _ _ => rfl⟩
  | true =>
      obtain ⟨t, ht, hundefined⟩ := h.passed s hs hdefined
      refine ⟨t, ht.run, ht.conditions, ht.keptLines, hundefined, fun other hne => ?_⟩
      refine ht.isDefined (List.not_mem_cons_of_ne_of_not_mem ?_ ?_)
      · exact fun heq => hne (toggle_injective heq)
      · exact toggle_not_mem_helperMacros other

theorem run_blocks {lines : Section → List String} {sections : List Section}
    (hsections : sections.Nodup) (hblock : ∀ sec ∈ sections, IsBlock α sec (lines sec)) {s : State α}
    (hs : s.isActive = true) :
    ∃ t, s.run (sections.flatMap lines) = some t ∧ t.conditions = s.conditions ∧
      t.keptLines = s.keptLines ++
        (sections.filter fun sec => s.isDefined sec.toggle).flatMap (fun sec => textLines (lines sec)) ∧
      (∀ sec ∈ sections, t.isDefined sec.toggle = false) ∧
      ∀ sec ∉ sections, t.isDefined sec.toggle = s.isDefined sec.toggle := by
  induction sections generalizing s with
  | nil => exact ⟨s, rfl, rfl, (List.append_nil _).symm, by simp, fun _ _ => rfl⟩
  | cons sec sections ih =>
      obtain ⟨hsec, hsections⟩ := List.nodup_cons.mp hsections
      obtain ⟨hown, hothers⟩ := List.forall_mem_cons.mp hblock
      obtain ⟨u, hrun, hconditions, hkept, hundefined, hframe⟩ := hown.exists_run hs
      have hactive : u.isActive = true := by
        rw [State.isActive, hconditions]
        exact hs
      obtain ⟨t, hrun', hconditions', hkept', hundefined', hframe'⟩ := ih hsections hothers hactive
      have hfilter : sections.filter (fun sec => u.isDefined sec.toggle) =
          sections.filter (fun sec => s.isDefined sec.toggle) :=
        List.filter_congr fun sec' hmem => hframe sec' fun heq => hsec (heq ▸ hmem)
      refine ⟨t, ?_, hconditions'.trans hconditions, ?_, ?_, ?_⟩
      · rw [List.flatMap_cons, State.run_append, hrun, Option.bind_some, hrun']
      · rw [hkept', hkept, hfilter, List.filter_cons]
        split_ifs <;> simp
      · refine List.forall_mem_cons.mpr ⟨?_, hundefined'⟩
        rw [hframe' sec hsec, hundefined]
      · intro sec' hmem
        obtain ⟨hne, hmem⟩ := not_or.mp (mt List.mem_cons.mpr hmem)
        rw [hframe' sec' hmem, hframe sec' hne]

/-! ## Any number of inclusions -/

def chosen (selected : List Section) : List Section :=
  [.names, .enumerators, .properties].filter (· ∈ selected)

theorem chosen_eq_filter_all {selected : List Section} (h : .functions ∉ selected) :
    Section.all.filter (· ∈ selected) = chosen selected := by
  simp [chosen, Section.all, List.filter_cons, h]

theorem nodup_chosen (selected : List Section) : (chosen selected).Nodup :=
  List.Nodup.filter _ (by decide)

theorem ne_functions_of_mem_chosen {selected : List Section} :
    ∀ sec ∈ chosen selected, sec ≠ .functions := by
  rintro sec hsec rfl
  simp [chosen] at hsec

theorem mem_chosen {selected : List Section} (h : .functions ∉ selected) {sec : Section} :
    sec ∈ chosen selected ↔ sec ∈ selected := by
  cases sec <;> simp [chosen, h]

section Registry

variable {r : Registry} (h : r.WellFormed) (hl : Layout.assign r.catalogue = .ok l)
include h hl

theorem readLines_chosen (style : Style) (t : PropertyTable) (selected : List Section) :
    Text.readLines (String.join ((chosen selected).map (textFrom r.catalogue style l t))) =
      (chosen selected).flatMap (linesFrom r.catalogue style l t) := by
  rw [join_textFrom]
  refine Text.readLines_unlines fun line hline => ?_
  obtain ⟨sec, hsec, hline⟩ := List.mem_flatMap.mp hline
  exact isLine_of_mem_linesFrom h hl (ne_functions_of_mem_chosen sec hsec) line hline

theorem inclusion_chosen (style : Style) (t : PropertyTable) (selected : List Section) {s : State α}
    (hs : s.conditions = []) (given : List (String × α)) :
    ∃ after, s.inclusion (String.join ((chosen selected).map (textFrom r.catalogue style l t))) given =
        some after ∧
      after.conditions = [] ∧
      after.keptLines = s.keptLines ++
        ((chosen selected).filter fun sec => (s.supply given).isDefined sec.toggle).flatMap
          (fun sec => textLines (linesFrom r.catalogue style l t sec)) ∧
      (∀ sec ∈ chosen selected, after.isDefined sec.toggle = false) ∧
      ∀ sec ∉ chosen selected, after.isDefined sec.toggle = (s.supply given).isDefined sec.toggle := by
  have hactive : (s.supply given).isActive = true := by
    rw [State.isActive, show (s.supply given).conditions = [] from hs]
    rfl
  have hblock : ∀ sec ∈ chosen selected, IsBlock α sec (linesFrom r.catalogue style l t sec) :=
    fun sec hsec => isBlock_linesFrom h hl (ne_functions_of_mem_chosen sec hsec)
  obtain ⟨after, hrun, hconditions, hkept, hundefined, hframe⟩ :=
    run_blocks (nodup_chosen selected) hblock hactive
  refine ⟨after, ?_, hconditions.trans hs, hkept, hundefined, hframe⟩
  rw [State.inclusion, readLines_chosen h hl, hrun]

theorem inclusions_chosen (style : Style) (t : PropertyTable) (selected : List Section)
    (givens : List (List (String × α))) :
    ∃ after, (State.start []).inclusions
        (String.join ((chosen selected).map (textFrom r.catalogue style l t))) givens = some after ∧
      after.conditions = [] := by
  refine State.exists_inclusions (P := (·.conditions = [])) (fun s given hs => ?_) rfl givens
  obtain ⟨after, hafter, hconditions, -⟩ := inclusion_chosen h hl style t selected hs given
  exact ⟨after, hafter, hconditions⟩

end Registry

theorem textLines_groupLines (k : Catalogue) (g : NameGroup) :
    textLines (groupLines k g) = (groupMembers k g).map (invocation g.callback) := by
  have hopening : textLines ["#ifndef " ++ g.callback,
      "#define " ++ g.callback ++ "(FIRST, SECOND) " ++ fallbackCallback ++ "(FIRST, SECOND)",
      "#endif", ""] = [] := by cases g <;> rfl
  have hclosing : textLines ["#undef " ++ g.callback, ""] = [] := by cases g <;> rfl
  rw [groupLines, textLines_append, textLines_append, hopening, hclosing, List.nil_append,
    List.append_nil]
  exact textLines_of_text (List.forall_mem_map.mpr fun d _ => ofString_invocation g d)

theorem textLines_namesLines (k : Catalogue) :
    textLines (namesLines k) = k.codeBearing.map (invocation "ATTRIBUTE_ENUM") ++
      (k.listed .strBool).map (invocation "ATTRIBUTE_STRBOOL") ++
      (k.listed .complexStr).map (invocation "ATTRIBUTE_COMPLEXSTR") := by
  have hcommon : textLines ["#ifndef " ++ fallbackCallback,
      "#define " ++ fallbackCallback ++ "(FIRST, SECOND)", "#endif", ""] = [] := rfl
  have hclosing : textLines ["#undef " ++ fallbackCallback, "#endif", ""] = [] := rfl
  have hopening : textLines Section.names.opening = [] := rfl
  rw [namesLines, textLines_append, textLines_append, textLines_append, hopening, hcommon, hclosing,
    List.nil_append, List.nil_append, List.append_nil]
  simp only [NameGroup.all, List.flatMap_cons, List.flatMap_nil, textLines_append,
    textLines_groupLines, groupMembers, NameGroup.categories, List.append_nil, List.append_assoc]
  rfl

theorem textLines_enumeratorsLines (hname : ∀ e ∈ l.entries, Text.IsIdentifier e.name) :
    textLines (enumeratorsLines l) = bracketLines l.ranges l.entries :=
  (textLines_block (.inr rfl)).trans
    (textLines_of_text (ofString_of_mem_bracketLines l.ranges hname))

theorem textLines_propertiesLines (style : Style) (t : PropertyTable) :
    textLines (propertiesLines style t) = "static const uint8_t AttrPropTable[] = \x7b" ::
      (t.entries.map (row style) ++ ["\x7d;"]) := by
  have hrows : textLines (t.entries.map (row style)) = t.entries.map (row style) :=
    textLines_of_text (List.forall_mem_map.mpr fun e _ => ofString_row style e)
  rw [propertiesLines, textLines_append, textLines_append, textLines_append, hrows]
  rfl

/-- Whatever selection of the three tables is included any number of times, and whatever macros the
consumer defines in between: the conditionals are balanced, each inclusion keeps the lines of exactly
the selected blocks whose symbols are defined when it starts, in a fixed order and always the same
lines, and it leaves these symbols undefined and all others as they were. -/
theorem inclusions_keep_selected (calls : List Call) (style : Style) {selected : List Section}
    (hselected : .functions ∉ selected)
    (hsize : (Registry.ofCalls calls).catalogue.codeBearing.length ≤ UInt32.size - 2)
    (ht : PropertyTable.build (Registry.ofCalls calls).catalogue = .ok t) :
    let k := (Registry.ofCalls calls).catalogue
    ∃ (text : String) (body : Section → List String),
      generateSections k style selected = .ok text ∧
      Balanced (Text.readLines text) ∧
      (∀ sec ∈ selected, ∃ own, sectionText k style sec = .ok own ∧
        body sec = textLines (Text.readLines own)) ∧
      body .names = k.codeBearing.map (invocation "ATTRIBUTE_ENUM") ++
        (k.listed .strBool).map (invocation "ATTRIBUTE_STRBOOL") ++
        (k.listed .complexStr).map (invocation "ATTRIBUTE_COMPLEXSTR") ∧
      (∃ l, Layout.assign k = .ok l ∧ body .enumerators = bracketLines l.ranges l.entries) ∧
      body .properties = "static const uint8_t AttrPropTable[] = \x7b" ::
        (t.entries.map (row style) ++ ["\x7d;"]) ∧
      ∀ (givens : List (List (String × α))) (given : List (String × α)),
        ∃ before after, (State.start []).inclusions text givens = some before ∧
          before.conditions = [] ∧
          before.inclusion text given = some after ∧
          after.conditions = [] ∧
          after.keptLines = before.keptLines ++
            ([.names, .enumerators, .properties].filter fun sec =>
              sec ∈ selected ∧ (before.supply given).isDefined sec.toggle).flatMap body ∧
          (∀ sec ∈ selected, after.isDefined sec.toggle = false) ∧
          ∀ sec ∉ selected,
            after.isDefined sec.toggle = (before.supply given).isDefined sec.toggle := by
  intro k
  have hwf := Registry.wellFormed_ofCalls calls
  obtain ⟨l, hl⟩ := (Layout.exists_assign_iff (k := k)).mpr hsize
  have htext : ∀ sec, sectionText k style sec = .ok (textFrom k style l t sec) :=
    fun sec => sectionText_eq_textFrom hl fun _ => ht
  refine ⟨String.join ((chosen selected).map (textFrom k style l t)),
    fun sec => textLines (linesFrom k style l t sec), ?_, ?_, fun sec hsec => ?_, ?_,
    ⟨l, hl, textLines_enumeratorsLines (isIdentifier_of_mem_entries hwf hl)⟩,
    textLines_propertiesLines style t, fun givens given => ?_⟩
  · rw [← chosen_eq_filter_all hselected]
    exact generateSections_eq_ok fun sec _ => htext sec
  · rw [readLines_chosen hwf hl]
    exact .flatMap fun sec hsec =>
      (isBlock_linesFrom (α := α) hwf hl (ne_functions_of_mem_chosen sec hsec)).balanced
  · refine ⟨_, htext sec, ?_⟩
    have hne : sec ≠ .functions := fun heq => hselected (heq ▸ hsec)
    rw [textFrom_eq_unlines, Text.readLines_unlines (isLine_of_mem_linesFrom hwf hl hne)]
  · exact textLines_namesLines k
  · obtain ⟨before, hbefore, hopen⟩ := inclusions_chosen hwf hl style t selected givens
    obtain ⟨after, hafter, hconditions, hkept, hundefined, hframe⟩ :=
      inclusion_chosen hwf hl style t selected hopen given
    refine ⟨before, after, hbefore, hopen, hafter, hconditions, ?_, fun sec hsec => ?_,
      fun sec hsec => ?_⟩
    · rw [hkept, chosen, List.filter_filter]
      simp only [Bool.decide_and, Bool.decide_eq_true, Bool.and_comm]
      rfl
    · exact hundefined sec ((mem_chosen hselected).mpr hsec)
    · exact hframe sec (mt (mem_chosen hselected).mp hsec)

/-- An attribute is named like a callback and shown like a directive. The enumerators are asked for, but
they are not selected. -/
theorem inclusions_keep_selected_twice :
    let calls : List Call := [.insert ⟨"ATTRIBUTE_ALL", .strBool, "#undef", []⟩,
      .insert ⟨"Align", .int, "#endif", [⟨32⟩, ⟨129⟩]⟩, .compatRule ⟨"#define", none⟩]
    let k := (Registry.ofCalls calls).catalogue
    let selected : List Section := [.properties, .names, .properties]
    let given : List (String × Unit) := [("GET_ATTR_NAMES", ()), ("GET_ATTR_ENUM", ())]
    let given' : List (String × Unit) := [("GET_ATTR_PROP_TABLE", ()), ("ATTRIBUTE_ALL", ())]
    .functions ∉ selected ∧ k.codeBearing.length ≤ UInt32.size - 2 ∧
    (∃ t, PropertyTable.build k = .ok t) ∧
    ∃ text first second, generateSections k .symbolic selected = .ok text ∧
      (State.start []).inclusion text given = some first ∧
      first.keptLines = ["ATTRIBUTE_ENUM(Align,#endif)", "ATTRIBUTE_STRBOOL(ATTRIBUTE_ALL,#undef)"] ∧
      first.inclusion text given' = some second ∧
      second.keptLines = first.keptLines ++ ["static const uint8_t AttrPropTable[] = \x7b",
        "0 | AttributeProperty::IntersectMin | AttributeProperty::FnAttr | " ++
          "AttributeProperty::<multiple>,", "\x7d;"] ∧
      second.isDefined "GET_ATTR_PROP_TABLE" = false ∧ second.isDefined "GET_ATTR_ENUM" = true := by
  intro calls k selected given given'
  have hselected : .functions ∉ selected := by decide
  have hsize : k.codeBearing.length ≤ UInt32.size - 2 := by decide
  have ht : PropertyTable.build k = .ok ⟨[⟨"Align", .int, [⟨32⟩, ⟨129⟩], ⟨161⟩⟩]⟩ := rfl
  obtain ⟨text, body, htext, -, -, hnames, -, hproperties, hinclusions⟩ :=
    inclusions_keep_selected (α := Unit) calls .symbolic hselected hsize ht
  obtain ⟨start, first, hstart, -, hfirst, -, hkept, hgone, hleft⟩ := hinclusions [] given
  obtain rfl : State.start [] = start := Option.some.inj hstart
  obtain ⟨first', second, hfirst', -, hsecond, -, hkept', hgone', hleft'⟩ := hinclusions [given] given'
  obtain rfl : first = first' := by
    rw [State.inclusions_cons, hfirst] at hfirst'
    exact Option.some.inj hfirst'
  have hasked : first.isDefined "GET_ATTR_ENUM" = true := hleft .enumerators (by decide)
  have hused : (first.supply given').isDefined Section.names.toggle = false := by
    rw [State.isDefined_supply]
    exact hgone .names (by decide)
  have hnew : (first.supply given').isDefined Section.properties.toggle = true := by
    rw [State.isDefined_supply]
    rfl
  have hchosen : ([.names, .enumerators, .properties] : List Section).filter (fun sec =>
      sec ∈ selected ∧ (first.supply given').isDefined sec.toggle) = [.properties] := by
    simp [selected, hused, hnew]
  refine ⟨hselected, hsize, ⟨_, ht⟩, text, first, second, htext, hfirst, ?_, hsecond, ?_,
    hgone' .properties (by decide), ?_⟩
  · rw [hkept]
    exact (List.append_nil _).trans hnames
  · rw [hkept', hchosen, List.flatMap_singleton, hproperties]
    rfl
  · refine (hleft' .enumerators (by decide)).trans ?_
    rw [State.isDefined_supply]
    exact hasked

end AttributeTables.Output
