import AttributeTables.Proofs.Output.Brackets
import AttributeTables.Proofs.Output.Texts
import AttributeTables.Proofs.PropertyTable.Entries
import AttributeTables.Proofs.Registry.History

/-!
# The generated sections agree

The names, the enumerators and the rows of the property table come from three separate walks
through a catalogue. Read back, they list the same attributes in the same order.
-/

namespace AttributeTables

variable {k : Catalogue}

namespace Output

/-! ## Names -/

theorem invokedName?_of_ne {d : Definition} {g : NameGroup} (hg : g ≠ .coded) :
    invokedName? "ATTRIBUTE_ENUM" (invocation g.callback d) = none := by
  cases g with
  | coded => exact absurd rfl hg
  | strBool => simp only [invocation, String.toList_append, invokedName?]; rfl
  | complexStr => simp only [invocation, String.toList_append, invokedName?]; rfl

theorem invokedName?_of_directive {line : String} (h : line = "" ∨ line.toList.head? = some '#') :
    invokedName? "ATTRIBUTE_ENUM" line = none := by
  rcases h with rfl | h
  · rfl
  · obtain ⟨rest, hline⟩ := List.head?_eq_some_iff.mp h
    rw [invokedName?, hline]
    rfl

theorem names_of_namesLines (hname : ∀ d ∈ k.codeBearing, Text.IsIdentifier d.name) :
    (namesLines k).filterMap (invokedName? "ATTRIBUTE_ENUM") = k.codeBearing.map (·.name) := by
  have hcoded : (k.codeBearing.filterMap fun d =>
      invokedName? "ATTRIBUTE_ENUM" (invocation NameGroup.coded.callback d)) =
      k.codeBearing.map (·.name) := by
    rw [← List.filterMap_eq_map]
    exact List.filterMap_congr fun d hd => invokedName?_invocation (hname d hd) _
  have hother : ∀ g : NameGroup, g ≠ .coded → ((groupMembers k g).filterMap fun d =>
      invokedName? "ATTRIBUTE_ENUM" (invocation g.callback d)) = [] :=
    fun g hg => List.filterMap_eq_nil_iff.mpr fun d _ => invokedName?_of_ne hg
  rw [filterMap_namesLines fun _ => invokedName?_of_directive]
  simp only [NameGroup.all, List.flatMap_cons, List.flatMap_nil, hother, ne_eq, reduceCtorEq,
    not_false_eq_true, List.append_nil]
  exact hcoded

/-! ## Rows -/

theorem rows_of_build {t : PropertyTable} (ht : PropertyTable.build k = .ok t) :
    t.entries.map (row .numeric) = k.codeBearing.map fun d => toString d.mask.bits.toNat ++ "," := by
  rw [PropertyTable.entries_of_build ht, List.map_map]
  rfl

theorem readRows_rows (style : Style) (t : PropertyTable) :
    readRows (Text.unlines (propertiesLines style t)) = some (t.entries.map (row style)) := by
  rw [readRows, Text.readLines_unlines (isLine_of_mem_propertiesLines style t)]
  exact body?_append _ _ _

theorem mask_bits (d : Definition) :
    d.mask.bits = d.properties.foldl (fun bits tag => bits ||| tag.bits) 0 :=
  (List.foldl_hom PropertySet.bits fun _ _ => rfl).symm

/-! ## Texts -/

section Registry

variable {r : Registry} (h : r.WellFormed)
include h

theorem readNames_namesLines :
    readNames (Text.unlines (namesLines r.catalogue)) =
      r.catalogue.codeBearing.map (·.name) := by
  rw [readNames, readLines_namesLines h]
  exact names_of_namesLines fun d hd => (valid_of_mem_groupMembers h (g := .coded) hd).1

theorem readBrackets_enumeratorsLines {l : Layout} (hl : Layout.assign r.catalogue = .ok l) :
    readBrackets (Text.unlines (enumeratorsLines l)) =
      some (bracketsFrom r.catalogue Category.codeBearing 1) := by
  rw [readBrackets, readLines_enumeratorsLines h hl]
  refine (congrArg (Option.bind · _) (body?_append _ _ _)).trans ?_
  rw [Option.bind_some, Layout.ranges_of_assign hl, Layout.entries_of_assign hl]
  exact brackets?_bracketLines h.identifier Layout.codeBearing_nodup Nat.one_pos
    (Layout.placed_lt_of_assign hl)

omit h in
theorem readRows_propertiesLines {t : PropertyTable} (ht : PropertyTable.build k = .ok t) :
    readRows (Text.unlines (propertiesLines .numeric t)) =
      some (k.codeBearing.map fun d => toString d.mask.bits.toNat ++ ",") := by
  rw [readRows_rows, rows_of_build ht]

end Registry

/-- The names, the enumerators and the rows of any registry that has a table list the same
attributes: the accepted ones that get codes, category by category. The `i`-th enumerator stands in
the bracket of the category of the `i`-th attribute, and the `i`-th row holds all its tags. -/
theorem sections_agree (calls : List Call) {t : PropertyTable}
    (hsize : (Registry.ofCalls calls).catalogue.codeBearing.length ≤ UInt32.size - 2)
    (ht : PropertyTable.build (Registry.ofCalls calls).catalogue = .ok t) :
    let k := (Registry.ofCalls calls).catalogue
    let accepted := (Registry.history {} calls).definitions
    (∀ d ∈ accepted, ∀ e ∈ accepted, d.name = e.name → d = e) ∧
    ∃ names enumerators properties : String,
      sectionText k .numeric .names = .ok names ∧
      sectionText k .numeric .enumerators = .ok enumerators ∧
      sectionText k .numeric .properties = .ok properties ∧
      ∃ ds brackets,
        ds = (Category.codeBearing.flatMap fun c => accepted.filter (·.category = c)) ∧
        readNames names = ds.map (·.name) ∧
        readBrackets enumerators = some brackets ∧
        brackets.map (·.category) = Category.codeBearing ∧
        (brackets.flatMap (·.definitions) =
          (ds.zipIdx 1).map fun p => definitionLine p.1.name p.2) ∧
        (∀ b ∈ brackets, b.definitions =
          ((ds.zipIdx 1).filter (·.1.category = b.category)).map
            fun p => definitionLine p.1.name p.2) ∧
        readRows properties = some (ds.map fun d =>
          toString (d.properties.foldl (fun (bits : UInt8) tag => bits ||| tag.bits) 0).toNat ++ ",") := by
  intro k accepted
  have hwf := Registry.wellFormed_ofCalls calls
  obtain ⟨l, hl⟩ := (Layout.exists_assign_iff (k := k)).mpr hsize
  have hds : k.codeBearing = Category.codeBearing.flatMap fun c => accepted.filter (·.category = c) :=
    List.flatMap_congr fun c _ => Registry.ofCalls_listed calls c
  have henumerators : sectionText k .numeric .enumerators = .ok (Text.unlines (enumeratorsLines l)) := by
    rw [sectionText, sectionLines, layout, hl]
    rfl
  have hproperties : sectionText k .numeric .properties =
      .ok (Text.unlines (propertiesLines .numeric t)) := by
    rw [sectionText, sectionLines, table, ht]
    rfl
  refine ⟨fun d hd e he => ?_, _, _, _, rfl, henumerators, hproperties, k.codeBearing, _, hds,
    readNames_namesLines hwf, readBrackets_enumeratorsLines hwf hl,
    map_category_bracketsFrom k _ _, flatMap_bracketsFrom k _ _,
    fun b hb => definitions_of_mem_bracketsFrom hwf.category_eq Layout.codeBearing_nodup hb, ?_⟩
  · exact hwf.eq_of_name_eq (Registry.mem_stored_ofCalls.mpr hd) (Registry.mem_stored_ofCalls.mpr he)
  · rw [readRows_propertiesLines ht]
    simp only [mask_bits]
    rfl

/-- One attribute is named like a marker, and another call is refused. -/
theorem sections_agree_named_like_marker :
    let calls : List Call := [.insert ⟨"Align", .int, "align", [⟨32⟩, ⟨2⟩]⟩,
      .insert ⟨"LastEnumAttr", .enum, "last", [⟨1⟩, ⟨16⟩]⟩, .insert ⟨"Align", .enum, "align", []⟩,
      .mergeRule ⟨"merge"⟩, .insert ⟨"Text", .strBool, "text", [⟨32⟩]⟩]
    (Registry.ofCalls calls).catalogue.codeBearing.length ≤ UInt32.size - 2 ∧
    (∃ t, PropertyTable.build (Registry.ofCalls calls).catalogue = .ok t) ∧
    ∃ names enumerators properties : String,
      sectionText (Registry.ofCalls calls).catalogue .numeric .names = .ok names ∧
      sectionText (Registry.ofCalls calls).catalogue .numeric .enumerators = .ok enumerators ∧
      sectionText (Registry.ofCalls calls).catalogue .numeric .properties = .ok properties ∧
      readNames names = ["LastEnumAttr", "Align"] ∧
      ((readBrackets enumerators).map fun brackets => brackets.flatMap (·.definitions)) =
        some ["LastEnumAttr = 1,", "Align = 2,"] ∧
      readRows properties = some ["17,", "34,"] := by
  intro calls
  have hsize : (Registry.ofCalls calls).catalogue.codeBearing.length ≤ UInt32.size - 2 := by decide
  have ht : PropertyTable.build (Registry.ofCalls calls).catalogue =
      .ok ⟨[⟨"LastEnumAttr", .enum, [⟨1⟩, ⟨16⟩], ⟨17⟩⟩, ⟨"Align", .int, [⟨32⟩, ⟨2⟩], ⟨34⟩⟩]⟩ := rfl
  obtain ⟨-, names, enumerators, properties, hnames, henumerators, hproperties, ds, brackets, rfl,
    hread, hbrackets, -, hdefinitions, -, hrows⟩ := sections_agree calls hsize ht
  refine ⟨hsize, ⟨_, ht⟩, names, enumerators, properties, hnames, henumerators, hproperties,
    hread, ?_, hrows⟩
  rw [hbrackets, Option.map_some, hdefinitions]
  rfl

end Output

end AttributeTables
