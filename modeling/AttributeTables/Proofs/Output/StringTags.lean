import AttributeTables.Output.Emission
import AttributeTables.Proofs.Layout.Growth

/-!
# Tags of string attributes

String attributes get no codes and no rows in the property table. Their tags stand in the same
definitions that the name tables are written from, and nothing refuses a restricted tag there. What is
laid out, checked and written depends on none of them.
-/

namespace AttributeTables

/-- The attribute without its tags. -/
def Definition.untagged (d : Definition) : Definition := { d with properties := [] }

/-- The catalogues list the same attributes and rules, up to the tags of what is listed under a
category without codes. -/
structure Catalogue.SameButStringTags (k k' : Catalogue) : Prop where
  coded : ∀ c : Category, c.bearsCode = true → k.listed c = k'.listed c
  uncoded : ∀ c : Category, c.bearsCode = false →
    (k.listed c).map Definition.untagged = (k'.listed c).map Definition.untagged
  compatRules : k.compatRules = k'.compatRules
  mergeRules : k.mergeRules = k'.mergeRules

variable {k k' : Catalogue}

theorem Catalogue.SameButStringTags.untagged (h : k.SameButStringTags k') (c : Category) :
    (k.listed c).map Definition.untagged = (k'.listed c).map Definition.untagged := by
  cases hc : c.bearsCode with
  | true => rw [h.coded c hc]
  | false => exact h.uncoded c hc

namespace Output

/-! ## Lines -/

theorem invocation_untagged (callback : String) (d : Definition) :
    invocation callback d.untagged = invocation callback d := rfl

section Lines

variable (h : k.SameButStringTags k')
include h

theorem map_invocation_groupMembers_congr (callback : String) (g : NameGroup) :
    (groupMembers k g).map (invocation callback) =
      (groupMembers k' g).map (invocation callback) := by
  have huntagged : ∀ ds : List Definition,
      ds.map (invocation callback) = (ds.map Definition.untagged).map (invocation callback) := by
    intro ds
    simp only [List.map_map, Function.comp_def, invocation_untagged]
  simp only [groupMembers, List.map_flatMap]
  refine List.flatMap_congr fun c _ => ?_
  rw [huntagged, h.untagged c, ← huntagged]

theorem namesLines_congr : namesLines k = namesLines k' := by
  have hgroups : groupLines k = groupLines k' := by
    funext g
    rw [groupLines, map_invocation_groupMembers_congr h, groupLines]
  rw [namesLines, hgroups, namesLines]

theorem functionsLines_congr : functionsLines k = functionsLines k' := by
  rw [functionsLines, h.compatRules, h.mergeRules, functionsLines]

theorem layout_congr : layout k = layout k' := by
  rw [layout, Layout.assign_congr h.coded, layout]

theorem table_congr : table k = table k' := by
  rw [table, PropertyTable.build_congr h.coded, table]

theorem sectionLines_congr (style : Style) (s : Section) :
    sectionLines k style s = sectionLines k' style s := by
  cases s with
  | names => rw [sectionLines, namesLines_congr h, sectionLines]
  | enumerators => rw [sectionLines, layout_congr h, sectionLines]
  | functions => rw [sectionLines, functionsLines_congr h, sectionLines]
  | properties => rw [sectionLines, table_congr h, sectionLines]

end Lines

/-! ## Pieces -/

namespace Writing

/-- What is written for an attribute on its own, in a loop, does not depend on its tags if it is the
same for the attribute without them. -/
theorem forM_congr {f : Definition → Writing Unit} (hf : ∀ d, f d.untagged = f d)
    {ds ds' : List Definition} (h : ds.map Definition.untagged = ds'.map Definition.untagged) :
    ds.forM f = ds'.forM f := by
  have huntagged : ∀ ds : List Definition, ds.forM f = (ds.map Definition.untagged).forM f := by
    intro ds
    induction ds with
    | nil => rfl
    | cons d ds ih =>
        calc (d :: ds).forM f
          _ = (f d.untagged >>= fun _ => (ds.map Definition.untagged).forM f) := by
            rw [hf, ← ih]
            rfl
          _ = ((d :: ds).map Definition.untagged).forM f := rfl
  rw [huntagged ds, h, ← huntagged]

section Pieces

variable (h : k.SameButStringTags k')
include h

theorem group_congr (g : NameGroup) : group k g = group k' g := by
  have hmembers : (fun c => (k.listed c).forM fun d =>
        putAll [g.callback, "(", d.name, ",", d.display, ")\n"]) =
      fun c => (k'.listed c).forM fun d =>
        putAll [g.callback, "(", d.name, ",", d.display, ")\n"] := by
    funext c
    exact forM_congr (fun _ => rfl) (h.untagged c)
  rw [group, hmembers, group]

theorem ofSection_congr (style : Style) (s : Section) :
    ofSection k style s = ofSection k' style s := by
  cases s with
  | names =>
      have hgroups : group k = group k' := funext (group_congr h)
      rw [ofSection, names, hgroups, ofSection, names]
  | enumerators => rw [ofSection, layout_congr h, ofSection]
  | functions => rw [ofSection, functions, h.compatRules, h.mergeRules, ofSection, functions]
  | properties => rw [ofSection, table_congr h, ofSection]

end Pieces

end Writing

/-! ## Texts -/

theorem sectionTexts_congr {style : Style} (h : sectionText k style = sectionText k' style)
    (sections : List Section) : sectionTexts k style sections = sectionTexts k' style sections := by
  induction sections with
  | nil => rfl
  | cons s sections ih => rw [sectionTexts, h, ih, sectionTexts]

/-- The tags of attributes that are listed without codes have no influence: the codes and the property
table are the same, or are refused for the same reason, and so are the whole text, every selection of
sections, and every section, also when it is emitted into a bounded space. -/
theorem generation_ignores_string_tags (h : k.SameButStringTags k') :
    Layout.assign k = Layout.assign k' ∧
    PropertyTable.build k = PropertyTable.build k' ∧
    (∀ options, generate k options = generate k' options) ∧
    (∀ style selected, generateSections k style selected = generateSections k' style selected) ∧
    (∀ style s, sectionText k style s = sectionText k' style s) ∧
    ∀ style s w, emitSection k style s w = emitSection k' style s w := by
  have htext : ∀ style, sectionText k style = sectionText k' style := by
    intro style
    funext s
    rw [sectionText, sectionLines_congr h, sectionText]
  refine ⟨Layout.assign_congr h.coded, PropertyTable.build_congr h.coded, fun options => ?_,
    fun style selected => ?_, fun style => congrFun (htext style), fun style s w => ?_⟩
  · simp only [generate, layout_congr h, table_congr h, namesLines_congr h, functionsLines_congr h]
  · simp only [generateSections, table_congr h, sectionTexts_congr (htext style)]
  · rw [emitSection, Writing.ofSection_congr h, emitSection]

/-- Tags that are restricted to other categories, and an unknown one, on attributes without codes. -/
theorem generation_ignores_string_tags_restricted :
    let coded (c : Category) : List Definition :=
      if c = .int then [⟨"Align", .int, "align", [⟨32⟩]⟩] else []
    let listed (c : Category) : List Definition :=
      if c = .strBool then [⟨"Nsw", .strBool, "nsw", []⟩, ⟨"Cpu", .enum, "cpu", [⟨1⟩]⟩] else coded c
    let listed' (c : Category) : List Definition :=
      if c = .strBool then [⟨"Nsw", .strBool, "nsw", [⟨48⟩, ⟨128⟩]⟩, ⟨"Cpu", .enum, "cpu", [⟨32⟩]⟩]
      else coded c
    let plain : Catalogue := ⟨listed, [⟨"isEqual", none⟩], []⟩
    let tagged : Catalogue := ⟨listed', [⟨"isEqual", none⟩], []⟩
    plain.SameButStringTags tagged ∧
      PropertyTable.build tagged = .ok ⟨[⟨"Align", .int, [⟨32⟩], ⟨32⟩⟩]⟩ ∧
      ∀ options, generate plain options = generate tagged options := by
  intro coded listed listed' plain tagged
  have h : plain.SameButStringTags tagged := by
    refine ⟨?_, ?_, rfl, rfl⟩
    · intro c hc
      cases c <;> first | rfl | cases hc
    · intro c _
      cases c <;> rfl
  obtain ⟨-, htable, hgenerate, -⟩ := generation_ignores_string_tags h
  have hbuild : PropertyTable.build plain = .ok ⟨[⟨"Align", .int, [⟨32⟩], ⟨32⟩⟩]⟩ := rfl
  exact ⟨h, htable.symm.trans hbuild, hgenerate⟩

end Output

end AttributeTables
