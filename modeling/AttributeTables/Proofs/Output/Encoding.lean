import AttributeTables.Proofs.Output.Alignment
import AttributeTables.Proofs.Output.Selections
import AttributeTables.Proofs.Preprocessor.Invocation

/-!
# Names and enumerators as an encoding

The invocations in the name tables give the attributes of each group, and the values of the
enumerators tell where one category ends and the next one starts. So the two sections determine the
names and display strings of every category.
-/

namespace AttributeTables

namespace Output

open Preprocessor

variable {k : Catalogue}

/-! ## Groups of the name tables -/

/-- What the tables pass on about an attribute. -/
def pair (d : Definition) : String × String := (d.name, d.display)

/-- The two arguments that are passed to a callback. -/
def Invocation.pair? (callback : String) (call : Invocation) : Option (String × String) :=
  match call.arguments with
  | [name, display] => if call.name = callback then some (name, display) else none
  | _ => none

/-- The pairs that are passed to the callback of a group, in order. -/
def readGroup (g : NameGroup) (text : String) : List (String × String) :=
  ((Text.readLines text).filterMap Invocation.ofLine?).filterMap (Invocation.pair? g.callback)

theorem pair?_attribute (g g' : NameGroup) (d : Definition) :
    Invocation.pair? g.callback ⟨g'.callback, [d.name, d.display]⟩ =
      if g' = g then some (pair d) else none := by
  by_cases hg : g' = g
  · rw [if_pos hg, hg]
    exact if_pos rfl
  · rw [if_neg hg]
    exact if_neg fun heq => hg (callback_injective heq)

theorem readGroup_namesLines {r : Registry} (h : r.WellFormed) (g : NameGroup) :
    readGroup g (Text.unlines (namesLines r.catalogue)) =
      (groupMembers r.catalogue g).map pair := by
  have hcall : ∀ g', ∀ d ∈ groupMembers r.catalogue g',
      Invocation.ofLine? (invocation g'.callback d) = some ⟨g'.callback, [d.name, d.display]⟩ := by
    intro g' d hd
    obtain ⟨hname, hdisplay⟩ := valid_of_mem_groupMembers h hd
    exact Invocation.ofLine?_invocation hname hdisplay g'
  have hgroup : ∀ g', ((groupMembers r.catalogue g').filterMap fun d =>
      (Invocation.ofLine? (invocation g'.callback d)).bind (Invocation.pair? g.callback)) =
      if g' = g then (groupMembers r.catalogue g').map pair else [] := by
    intro g'
    split_ifs with hg
    · rw [← List.filterMap_eq_map]
      refine List.filterMap_congr fun d hd => ?_
      rw [hcall g' d hd, Option.bind_some, pair?_attribute, if_pos hg]
      rfl
    · refine List.filterMap_eq_nil_iff.mpr fun d hd => ?_
      rw [hcall g' d hd, Option.bind_some, pair?_attribute, if_neg hg]
  rw [readGroup, readLines_namesLines h, List.filterMap_filterMap,
    filterMap_namesLines fun line hline => by rw [Invocation.ofLine?_eq_none hline]; rfl]
  simp only [hgroup]
  cases g <;> simp [NameGroup.all]

/-! ## Sizes of the categories -/

theorem map_length_bracketsFrom (k : Catalogue) (cs : List Category) (n : Nat) :
    (bracketsFrom k cs n).map (·.definitions.length) = cs.map fun c => (k.listed c).length := by
  induction cs generalizing n with
  | nil => rfl
  | cons c cs ih => simp [bracketsFrom, numbered, ih]

/-- A list of lists is determined by its members in a row and the sizes of its lists. -/
theorem listed_eq_of_codeBearing {k k' : Catalogue}
    (hcoded : k.codeBearing.map pair = k'.codeBearing.map pair)
    (hlength : (Category.codeBearing.map fun c => (k.listed c).length) =
      Category.codeBearing.map fun c => (k'.listed c).length) {c : Category}
    (hc : c.bearsCode = true) : (k.listed c).map pair = (k'.listed c).map pair := by
  have hlists : (Category.codeBearing.map fun c => (k.listed c).map pair) =
      Category.codeBearing.map fun c => (k'.listed c).map pair := by
    refine List.eq_iff_flatten_eq.mpr ⟨?_, ?_⟩
    · rw [← List.flatMap_def, ← List.flatMap_def, ← List.map_flatMap, ← List.map_flatMap]
      exact hcoded
    · simpa [Function.comp_def] using hlength
  exact List.map_inj_left.mp hlists c (Category.mem_codeBearing c |>.mpr hc)

/-! ## Two registries -/

section Registries

variable {r r' : Registry} (h : r.WellFormed) (h' : r'.WellFormed)
include h h'

/-- Equal name tables list the same attributes in each group. -/
theorem groupMembers_eq (hnames : Text.unlines (namesLines r.catalogue) =
      Text.unlines (namesLines r'.catalogue)) (g : NameGroup) :
    (groupMembers r.catalogue g).map pair = (groupMembers r'.catalogue g).map pair := by
  rw [← readGroup_namesLines h, ← readGroup_namesLines h', hnames]

/-- Equal enumerators count the same number of attributes in each category. -/
theorem map_length_listed_eq {l l' : Layout} (hl : Layout.assign r.catalogue = .ok l)
    (hl' : Layout.assign r'.catalogue = .ok l')
    (henum : Text.unlines (enumeratorsLines l) = Text.unlines (enumeratorsLines l')) :
    (Category.codeBearing.map fun c => (r.listed c).length) =
      Category.codeBearing.map fun c => (r'.listed c).length := by
  have hread := readBrackets_enumeratorsLines h hl
  rw [henum, readBrackets_enumeratorsLines h' hl', Option.some.injEq] at hread
  have hlength := congrArg (List.map fun b : Bracket => b.definitions.length) hread
  rw [map_length_bracketsFrom, map_length_bracketsFrom] at hlength
  exact hlength.symm

end Registries

/-- Two registries with the same name tables and the same enumerators have the same names and
display strings, category by category and in the same order. -/
theorem listed_eq_of_sections_eq (calls calls' : List Call) (style style' : Style)
    (hsize : (Registry.ofCalls calls).catalogue.codeBearing.length ≤ UInt32.size - 2)
    (hsize' : (Registry.ofCalls calls').catalogue.codeBearing.length ≤ UInt32.size - 2)
    (hnames : sectionText (Registry.ofCalls calls).catalogue style .names =
      sectionText (Registry.ofCalls calls').catalogue style' .names)
    (henum : sectionText (Registry.ofCalls calls).catalogue style .enumerators =
      sectionText (Registry.ofCalls calls').catalogue style' .enumerators) (c : Category) :
    ((Registry.ofCalls calls).listed c).map (fun d => (d.name, d.display)) =
      ((Registry.ofCalls calls').listed c).map fun d => (d.name, d.display) := by
  have h := Registry.wellFormed_ofCalls calls
  have h' := Registry.wellFormed_ofCalls calls'
  obtain ⟨l, hl⟩ := Layout.exists_assign_iff.mpr hsize
  obtain ⟨l', hl'⟩ := Layout.exists_assign_iff.mpr hsize'
  rw [sectionText_enumerators hl, sectionText_enumerators hl', Except.ok.injEq] at henum
  have hgroup := groupMembers_eq h h' (Except.ok.inj hnames)
  by_cases hc : c.bearsCode = true
  · exact listed_eq_of_codeBearing (hgroup .coded) (map_length_listed_eq h h' hl hl' henum) hc
  · -- The other two categories are groups of their own.
    have hown : c.group.categories = [c] := by cases c <;> first | rfl | exact absurd rfl hc
    have hmembers := hgroup c.group
    rw [groupMembers, groupMembers, hown, List.flatMap_singleton, List.flatMap_singleton] at hmembers
    exact hmembers

/-- Attributes named like a marker and like a callback. The two registries were filled in different
orders, and they have different properties and rules. -/
theorem listed_eq_of_sections_eq_named_like_marker :
    let calls : List Call := [.insert ⟨"FirstTypeAttr", .enum, "first", []⟩,
      .insert ⟨"LastEnumAttr", .type, "last", []⟩, .insert ⟨"ATTRIBUTE_ENUM", .strBool, "enum", []⟩,
      .insert ⟨"ATTRIBUTE_ENUM", .int, "int", []⟩]
    let calls' : List Call := [.mergeRule ⟨"merge"⟩,
      .insert ⟨"ATTRIBUTE_ENUM", .strBool, "enum", [⟨1⟩]⟩, .insert ⟨"LastEnumAttr", .type, "last", []⟩,
      .insert ⟨"FirstTypeAttr", .enum, "first", [⟨16⟩]⟩]
    (Registry.ofCalls calls).catalogue.codeBearing.length ≤ UInt32.size - 2 ∧
    (Registry.ofCalls calls').catalogue.codeBearing.length ≤ UInt32.size - 2 ∧
    sectionText (Registry.ofCalls calls).catalogue .numeric .names =
      sectionText (Registry.ofCalls calls').catalogue .symbolic .names ∧
    sectionText (Registry.ofCalls calls).catalogue .numeric .enumerators =
      sectionText (Registry.ofCalls calls').catalogue .symbolic .enumerators ∧
    ∀ c, ((Registry.ofCalls calls).listed c).map (fun d => (d.name, d.display)) =
      ((Registry.ofCalls calls').listed c).map fun d => (d.name, d.display) := by
  intro calls calls'
  have hsize : (Registry.ofCalls calls).catalogue.codeBearing.length ≤ UInt32.size - 2 := by decide
  have hsize' : (Registry.ofCalls calls').catalogue.codeBearing.length ≤ UInt32.size - 2 := by decide
  have hnames : sectionText (Registry.ofCalls calls).catalogue .numeric .names =
      sectionText (Registry.ofCalls calls').catalogue .symbolic .names := rfl
  have henum : sectionText (Registry.ofCalls calls).catalogue .numeric .enumerators =
      sectionText (Registry.ofCalls calls').catalogue .symbolic .enumerators := rfl
  exact ⟨hsize, hsize', hnames, henum,
    listed_eq_of_sections_eq calls calls' .numeric .symbolic hsize hsize' hnames henum⟩

end Output

end AttributeTables
