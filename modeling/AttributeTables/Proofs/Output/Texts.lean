import AttributeTables.Proofs.Layout.Partition
import AttributeTables.Proofs.Output.Reading
import AttributeTables.Proofs.PropertyTable.Tags

/-!
# The lines of the generated sections

No line that is written for an attribute breaks, so the texts of the sections give their lines back.
-/

namespace AttributeTables

variable {k : Catalogue}

namespace Output

theorem isLine_definitionLine {name : String} (hname : Text.IsLine name) (n : Nat) :
    Text.IsLine (definitionLine name n) := by
  simp only [definitionLine, Text.isLine_append]
  exact ⟨⟨⟨hname, by decide⟩, Text.isLine_toString n⟩, by decide⟩

theorem isLine_invocation {d : Definition} (hname : Text.IsIdentifier d.name)
    (hdisplay : IsArgument d.display) (g : NameGroup) : Text.IsLine (invocation g.callback d) := by
  simp only [invocation, Text.isLine_append]
  exact ⟨⟨⟨⟨⟨by cases g <;> decide, by decide⟩, hname.isLine⟩, by decide⟩, hdisplay.isLine⟩, by decide⟩

theorem isLine_of_mem_groupLines (hline : ∀ c, ∀ d ∈ k.listed c, ∀ g : NameGroup,
    Text.IsLine (invocation g.callback d)) (g : NameGroup) :
    ∀ line ∈ groupLines k g, Text.IsLine line := by
  refine List.forall_mem_append.mpr ⟨List.forall_mem_append.mpr ⟨?_, ?_⟩, ?_⟩
  · cases g <;> decide
  · refine List.forall_mem_map.mpr fun d hd => ?_
    obtain ⟨c, _, hd⟩ := List.mem_flatMap.mp hd
    exact hline c d hd g
  · cases g <;> decide

theorem isLine_of_mem_namesLines (hline : ∀ c, ∀ d ∈ k.listed c, ∀ g : NameGroup,
    Text.IsLine (invocation g.callback d)) : ∀ line ∈ namesLines k, Text.IsLine line := by
  refine List.forall_mem_append.mpr ⟨List.forall_mem_append.mpr ⟨by decide, ?_⟩, by decide⟩
  intro line hmem
  obtain ⟨g, _, hmem⟩ := List.mem_flatMap.mp hmem
  exact isLine_of_mem_groupLines hline g line hmem

/-- What holds of every enumerator that is written holds of every line of the brackets. -/
theorem forall_mem_bracketLines {p : String → Prop}
    (hmarker : ∀ c value, p (enumerator (firstMarker c) value) ∧ p (enumerator (lastMarker c) value))
    (ranges : List (Category × CodeRange)) {entries : List CodeEntry}
    (hentry : ∀ e ∈ entries, p (enumerator e.name e.code)) :
    ∀ line ∈ bracketLines ranges entries, p line := by
  induction ranges generalizing entries with
  | nil => simp [bracketLines]
  | cons q ranges ih =>
      refine List.forall_mem_append.mpr ⟨List.forall_mem_cons.mpr ⟨?_, ?_⟩,
        List.forall_mem_cons.mpr ⟨?_, ?_⟩⟩
      · exact (hmarker q.1 _).1
      · refine List.forall_mem_map.mpr fun e he => ?_
        exact hentry e ((List.takeWhile_sublist _).mem he)
      · exact (hmarker q.1 _).2
      · exact ih fun e he => hentry e ((List.dropWhile_sublist _).mem he)

theorem isLine_of_mem_bracketLines (ranges : List (Category × CodeRange)) {entries : List CodeEntry}
    (hline : ∀ e ∈ entries, Text.IsLine e.name) :
    ∀ line ∈ bracketLines ranges entries, Text.IsLine line := by
  have hmarker : ∀ c, Text.IsLine (firstMarker c) ∧ Text.IsLine (lastMarker c) := by
    intro c
    cases c <;> decide
  refine forall_mem_bracketLines (fun c value => ⟨?_, ?_⟩) ranges fun e he => ?_
  · exact isLine_definitionLine (hmarker c).1 value.toNat
  · exact isLine_definitionLine (hmarker c).2 value.toNat
  · exact isLine_definitionLine (hline e he) e.code.toNat

theorem isLine_join {texts : List String} (h : ∀ s ∈ texts, Text.IsLine s) :
    Text.IsLine (String.join texts) := by
  intro x hx
  rw [String.toList_join] at hx
  obtain ⟨s, hs, hx⟩ := List.mem_flatMap.mp hx
  exact h s hs x hx

/-- The names in expressions, with the two placeholders. -/
def symbols : List String :=
  ("<none>" :: "<multiple>" :: Property.all.map Property.name).map ("AttributeProperty::" ++ ·)

theorem symbol_mem_symbols (item : PropertySet) : symbol item ∈ symbols :=
  List.mem_map_of_mem (PropertySet.name_mem_names item)

theorem isLine_symbol (item : PropertySet) : Text.IsLine (symbol item) := by
  have hline : ∀ s ∈ symbols, Text.IsLine s := by decide
  exact hline _ (symbol_mem_symbols item)

theorem isLine_row (style : Style) (e : PropertyEntry) : Text.IsLine (row style e) := by
  cases style with
  | numeric => exact Text.isLine_append.mpr ⟨Text.isLine_toString _, by decide⟩
  | symbolic =>
      refine Text.isLine_append.mpr ⟨Text.isLine_append.mpr ⟨by decide, ?_⟩, by decide⟩
      refine isLine_join (List.forall_mem_map.mpr fun item _ => ?_)
      exact Text.isLine_append.mpr ⟨by decide, isLine_symbol item⟩

theorem isLine_of_mem_propertiesLines (style : Style) (t : PropertyTable) :
    ∀ line ∈ propertiesLines style t, Text.IsLine line := by
  refine List.forall_mem_append.mpr ⟨List.forall_mem_append.mpr ⟨by decide, ?_⟩, by decide⟩
  exact List.forall_mem_map.mpr fun e _ => isLine_row style e

/-! ## Invocations -/

/-- What reads neither directives nor empty lines reads the invocations, group by group. -/
theorem filterMap_namesLines {β : Type} {read : String → Option β}
    (hread : ∀ line, line = "" ∨ line.toList.head? = some '#' → read line = none) (k : Catalogue) :
    (namesLines k).filterMap read = NameGroup.all.flatMap fun g =>
      (groupMembers k g).filterMap fun d => read (invocation g.callback d) := by
  have hnone : ∀ lines : List String, (∀ line ∈ lines, line = "" ∨ line.toList.head? = some '#') →
      lines.filterMap read = [] :=
    fun lines h => List.filterMap_eq_nil_iff.mpr fun line hline => hread line (h line hline)
  have hgroup : ∀ g, (groupLines k g).filterMap read =
      (groupMembers k g).filterMap fun d => read (invocation g.callback d) := by
    intro g
    rw [groupLines, List.filterMap_append, List.filterMap_append, List.filterMap_map,
      hnone _ (by cases g <;> decide), hnone _ (by cases g <;> decide), List.append_nil,
      List.nil_append]
    rfl
  rw [namesLines, List.filterMap_append, List.filterMap_append, List.filterMap_flatMap,
    List.flatMap_congr fun g _ => hgroup g, hnone _ (by decide), hnone _ (by decide),
    List.append_nil, List.nil_append]

/-! ## Sections of a registry -/

section Registry

variable {r : Registry} (h : r.WellFormed)
include h

theorem valid_of_mem_groupMembers {g : NameGroup} {d : Definition}
    (hd : d ∈ groupMembers r.catalogue g) : Text.IsIdentifier d.name ∧ IsArgument d.display := by
  obtain ⟨c, _, hd⟩ := List.mem_flatMap.mp hd
  exact ⟨h.identifier c d hd, h.argument c d hd⟩

theorem isLine_of_mem_namesLines_registry :
    ∀ line ∈ namesLines r.catalogue, Text.IsLine line :=
  isLine_of_mem_namesLines fun c d hd g => isLine_invocation (h.identifier c d hd) (h.argument c d hd) g

theorem readLines_namesLines :
    Text.readLines (Text.unlines (namesLines r.catalogue)) = namesLines r.catalogue :=
  Text.readLines_unlines (isLine_of_mem_namesLines_registry h)

variable {l : Layout} (hl : Layout.assign r.catalogue = .ok l)
include hl

theorem isIdentifier_of_mem_entries : ∀ e ∈ l.entries, Text.IsIdentifier e.name := by
  intro e he
  rw [Layout.entries_of_assign hl] at he
  obtain ⟨i, p, hp, rfl⟩ := Layout.mem_entriesFrom.mp he
  exact h.identifier p.1 p.2 (Catalogue.fst_mem_of_mem_under (List.mem_of_getElem? hp)).2

theorem isLine_of_mem_enumeratorsLines : ∀ line ∈ enumeratorsLines l, Text.IsLine line := by
  refine List.forall_mem_append.mpr ⟨List.forall_mem_append.mpr ⟨by decide, ?_⟩, by decide⟩
  exact isLine_of_mem_bracketLines _ fun e he => (isIdentifier_of_mem_entries h hl e he).isLine

theorem readLines_enumeratorsLines :
    Text.readLines (Text.unlines (enumeratorsLines l)) = enumeratorsLines l :=
  Text.readLines_unlines (isLine_of_mem_enumeratorsLines h hl)

end Registry

end Output

end AttributeTables
