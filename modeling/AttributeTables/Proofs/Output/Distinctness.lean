import AttributeTables.Proofs.Output.Brackets
import AttributeTables.Proofs.Output.Selections
import AttributeTables.Proofs.Output.Texts
import AttributeTables.Proofs.Lookups

/-!
# Names of the enumerators

The enumerators are the attributes that get codes and two markers for each of their categories. The
names of a registry are distinct, but nothing keeps an attribute from being named like a marker.
-/

namespace AttributeTables

namespace Output

variable {k : Catalogue}

/-- The name that a line defines as a value. -/
def definedName? (line : String) : Option String :=
  (value? line).map fun _ => String.ofList (line.toList.takeWhile (· != ' '))

/-- The names of the enumerators, in order. -/
def readEnumerators (text : String) : List String := (Text.readLines text).filterMap definedName?

/-! ## Reading names back -/

theorem definedName?_definitionLine {name : String} (hname : ' ' ∉ name.toList) (n : Nat) :
    definedName? (definitionLine name n) = some name := by
  have hblank : ∀ x ∈ name.toList, (x != ' ') = true := by
    intro x hx
    rw [bne_iff_ne]
    rintro rfl
    exact hname hx
  have hline : (definitionLine name n).toList =
      name.toList ++ " = ".toList ++ (toString n ++ ",").toList := by
    simp [definitionLine]
  have htake : (definitionLine name n).toList.takeWhile (· != ' ') = name.toList := by
    rw [hline, List.append_assoc, List.takeWhile_append_of_pos hblank]
    exact List.append_nil _
  rw [definedName?, value?_definitionLine hname, htake, Option.map_some, String.ofList_toList]

theorem filterMap_numbered {ds : List Definition} (hnames : ∀ d ∈ ds, ' ' ∉ d.name.toList) (n : Nat) :
    (numbered ds n).filterMap definedName? = ds.map (·.name) := by
  induction ds generalizing n with
  | nil => rfl
  | cons d ds ih =>
      obtain ⟨hname, hnames⟩ := List.forall_mem_cons.mp hnames
      rw [numbered_cons, List.filterMap_cons_some (definedName?_definitionLine hname n), ih hnames,
        List.map_cons]

def bracketNames (k : Catalogue) (c : Category) : List String :=
  firstMarker c :: ((k.listed c).map (·.name) ++ [lastMarker c])

theorem filterMap_bracketLines (hname : ∀ c, ∀ d ∈ k.listed c, ' ' ∉ d.name.toList)
    {cs : List Category} (hcs : cs.Nodup) {n : Nat}
    (hbound : n + (k.under cs).length < UInt32.size) :
    (bracketLines (Layout.rangesFrom k cs n) (Layout.entriesFrom (k.under cs) n)).filterMap
      definedName? = cs.flatMap (bracketNames k) := by
  induction cs generalizing n with
  | nil => rfl
  | cons c cs ih =>
      have hlen := k.length_under_cons c cs
      obtain ⟨hc, hcs⟩ := List.nodup_cons.mp hcs
      rw [bracketLines_cons hc hbound,
        List.filterMap_cons_some (definedName?_definitionLine (blank_not_mem_firstMarker c) n),
        List.filterMap_append, filterMap_numbered (hname c),
        List.filterMap_cons_some (definedName?_definitionLine (blank_not_mem_lastMarker c) _),
        ih hcs (by omega), List.flatMap_cons, bracketNames]
      simp

theorem readEnumerators_enumeratorsLines {r : Registry} (h : r.WellFormed) {l : Layout}
    (hl : Layout.assign r.catalogue = .ok l) :
    readEnumerators (Text.unlines (enumeratorsLines l)) =
      Category.codeBearing.flatMap (bracketNames r.catalogue) := by
  have hname : ∀ c, ∀ d ∈ r.catalogue.listed c, ' ' ∉ d.name.toList :=
    fun c d hd => (h.identifier c d hd).not_mem rfl
  have hopening : Section.enumerators.opening.filterMap definedName? = [] := rfl
  have hclosing : ["#endif", ""].filterMap definedName? = [] := rfl
  rw [readEnumerators, readLines_enumeratorsLines h hl, enumeratorsLines, List.filterMap_append,
    List.filterMap_append, hopening, hclosing, Layout.ranges_of_assign hl,
    Layout.entries_of_assign hl, List.nil_append, List.append_nil]
  exact filterMap_bracketLines hname Layout.codeBearing_nodup (Layout.placed_lt_of_assign hl)

/-! ## Markers and attributes -/

/-- The markers of all categories. -/
def markers : List String := Category.codeBearing.flatMap fun c => [firstMarker c, lastMarker c]

theorem bracketNames_perm (k : Catalogue) :
    (Category.codeBearing.flatMap (bracketNames k)).Perm (markers ++ k.codeBearing.map (·.name)) := by
  have hbracket : ∀ c ∈ Category.codeBearing, (bracketNames k c).Perm
      ([firstMarker c, lastMarker c] ++ (k.listed c).map (·.name)) :=
    fun c _ => (List.perm_append_comm).cons _
  refine (List.Perm.flatMap_left _ hbracket).trans ?_
  rw [Catalogue.codeBearing, List.map_flatMap]
  exact (List.flatMap_append_perm _ _ _).symm

theorem nodup_markers : markers.Nodup := by decide

theorem isIdentifier_of_mem_markers : ∀ name ∈ markers, Text.IsIdentifier name := by decide

/-- The enumerators of a registry are written as long as there are codes for its attributes. They are
identifiers: the markers, and the names of the attributes that get codes. They are distinct exactly if
none of these attributes is named like a marker. -/
theorem enumerators_nodup_iff (calls : List Call) (style : Style) :
    let k := (Registry.ofCalls calls).catalogue
    ((∃ text, sectionText k style .enumerators = .ok text) ↔
      k.codeBearing.length ≤ UInt32.size - 2) ∧
    ∀ text, sectionText k style .enumerators = .ok text →
      (readEnumerators text).Perm (markers ++ k.codeBearing.map (·.name)) ∧
      (∀ name ∈ readEnumerators text, Text.IsIdentifier name) ∧
      ((readEnumerators text).Nodup ↔ ∀ d ∈ k.codeBearing, d.name ∉ markers) := by
  intro k
  have hwf := Registry.wellFormed_ofCalls calls
  refine ⟨?_, fun text htext => ?_⟩
  · rw [← Layout.exists_assign_iff]
    constructor
    · rintro ⟨text, htext⟩
      obtain ⟨l, hl, -⟩ := sectionText_enumerators_eq_ok_iff.mp htext
      exact ⟨l, hl⟩
    · rintro ⟨l, hl⟩
      exact ⟨_, sectionText_enumerators hl⟩
  obtain ⟨l, hl, rfl⟩ := sectionText_enumerators_eq_ok_iff.mp htext
  have hperm : (readEnumerators (Text.unlines (enumeratorsLines l))).Perm
      (markers ++ k.codeBearing.map (·.name)) := by
    rw [readEnumerators_enumeratorsLines hwf hl]
    exact bracketNames_perm k
  refine ⟨hperm, ?_, ?_⟩
  · intro name hmem
    rcases List.mem_append.mp (hperm.mem_iff.mp hmem) with hmem | hmem
    · exact isIdentifier_of_mem_markers name hmem
    · obtain ⟨d, hd, rfl⟩ := List.mem_map.mp hmem
      exact (valid_of_mem_groupMembers hwf (g := .coded) hd).1
  · rw [hperm.nodup_iff, List.nodup_append]
    constructor
    · rintro ⟨-, -, hdisjoint⟩ d hd hmem
      exact hdisjoint _ hmem _ (List.mem_map_of_mem hd) rfl
    · intro hnames
      refine ⟨nodup_markers, hwf.codeBearing_nodup, ?_⟩
      rintro marker hmarker name hname rfl
      obtain ⟨d, hd, rfl⟩ := List.mem_map.mp hname
      exact hnames d hd hmarker

/-- A string attribute may be named like a marker, since it is no enumerator. -/
theorem enumerators_nodup_of_string_attribute :
    let calls : List Call := [.insert ⟨"FirstTypeAttr", .strBool, "first", []⟩,
      .insert ⟨"Align", .int, "align", [⟨32⟩]⟩, .insert ⟨"First", .enum, "first", []⟩]
    ∃ text, sectionText (Registry.ofCalls calls).catalogue .numeric .enumerators = .ok text ∧
      (readEnumerators text).Nodup ∧ "First" ∈ readEnumerators text := by
  intro calls
  obtain ⟨hwritten, hread⟩ := enumerators_nodup_iff calls .numeric
  obtain ⟨text, htext⟩ := hwritten.mpr (by decide)
  obtain ⟨hperm, -, hnodup⟩ := hread text htext
  exact ⟨text, htext, hnodup.mpr (by decide), hperm.mem_iff.mpr (by decide)⟩

/-- An attribute that is named like a marker repeats an enumerator. -/
theorem enumerators_repeat_marker_name :
    let r := Registry.ofCalls [.insert ⟨"FirstEnumAttr", .enum, "first", []⟩]
    ∃ text, sectionText r.catalogue .numeric .enumerators = .ok text ∧
      ¬ (readEnumerators text).Nodup := by
  intro r
  obtain ⟨l, hl⟩ := (Layout.exists_assign_iff (k := r.catalogue)).mpr (by decide)
  refine ⟨_, sectionText_enumerators hl, ?_⟩
  rw [readEnumerators_enumeratorsLines (Registry.wellFormed_ofCalls _) hl]
  decide

end Output

end AttributeTables
