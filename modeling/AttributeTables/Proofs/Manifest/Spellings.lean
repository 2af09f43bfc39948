import AttributeTables.Manifest
import AttributeTables.Proofs.Toml.Records

/-!
# Spellings of a manifest

A key may be replaced by its alias, keys may come in another order, and an entry may be an array of its
fields. A manifest in another spelling gives the same registry or the same fault. What does not have the
shape of a manifest is a defect, before any of its entries is looked at.
-/

namespace AttributeTables

open Toml

/-! ## Entries -/

namespace AttributeEntry

theorem lawful_schema : schema.Lawful where
  names_nodup := by decide
  keys_nodup := by decide
  independent := by
    simp only [schema, List.pairwise_cons, List.forall_mem_cons, List.not_mem_nil, false_imp_iff,
      implies_true, and_true, List.Pairwise.nil]
    refine ⟨⟨?_, ?_, ?_⟩, ⟨?_, ?_⟩, ?_⟩
    all_goals exact Field.Keeps.independent (fun _ _ => rfl) (fun _ _ => rfl) fun _ _ _ => rfl

/-- The shape of what belongs to the field with the name. -/
def FieldFits : String → Tree → Prop
  | "kind" => IsChoice (Category.all.map Category.name)
  | "properties" => IsListOf IsText
  | _ => IsText

theorem takes_fields : ∀ f ∈ schema.fields, f.Takes (FieldFits f.name) := by
  simp only [schema, List.forall_mem_cons, List.not_mem_nil, false_imp_iff, implies_true, and_true]
  refine ⟨?_, ?_, ?_, ?_⟩
  · exact Field.Keeps.takes (fun _ _ => rfl) reads_readString
  · exact Field.Keeps.takes (fun _ _ => rfl) (reads_readChoice _)
  · exact Field.Keeps.takes (fun _ _ => rfl) reads_readString
  · exact Field.Keeps.takes (fun _ _ => rfl) (reads_readList reads_readString)

end AttributeEntry

theorem CompatRule.lawful_schema : schema.Lawful where
  names_nodup := by decide
  keys_nodup := by decide
  independent := by
    simp only [schema, List.pairwise_cons, List.forall_mem_cons, List.not_mem_nil, false_imp_iff,
      implies_true, and_true, List.Pairwise.nil]
    exact Field.Keeps.independent (fun _ _ => rfl) (fun _ _ => rfl) fun _ _ _ => rfl

theorem CompatRule.takes_fields : ∀ f ∈ schema.fields, f.Takes IsText := by
  simp only [schema, List.forall_mem_cons, List.not_mem_nil, false_imp_iff, implies_true, and_true]
  refine ⟨?_, ?_⟩
  · exact Field.Keeps.takes (fun _ _ => rfl) reads_readString
  · exact Field.Keeps.takes (fun _ _ => rfl) reads_readString

theorem MergeRule.lawful_schema : schema.Lawful where
  names_nodup := by decide
  keys_nodup := by decide
  independent := List.pairwise_singleton _ _

theorem MergeRule.takes_fields : ∀ f ∈ schema.fields, f.Takes IsText :=
  List.forall_mem_singleton.mpr (Field.Keeps.takes (fun _ _ => rfl) reads_readString)

/-! ## Manifests -/

namespace Manifest

theorem lawful_schema : schema.Lawful where
  names_nodup := by decide
  keys_nodup := by decide
  independent := by
    simp only [schema, List.pairwise_cons, List.forall_mem_cons, List.not_mem_nil, false_imp_iff,
      implies_true, and_true, List.Pairwise.nil]
    refine ⟨⟨?_, ?_⟩, ?_⟩
    all_goals exact Field.Keeps.independent (fun _ _ => rfl) (fun _ _ => rfl) fun _ _ _ => rfl

/-- The shape of what belongs to the field with the name. -/
def FieldFits : String → Tree → Prop
  | "attr" => IsListOf (AttributeEntry.schema.Fits AttributeEntry.FieldFits)
  | "compat_rule" => IsListOf (CompatRule.schema.Fits fun _ => IsText)
  | _ => IsListOf (MergeRule.schema.Fits fun _ => IsText)

/-- The tree has the shape of a manifest. -/
def Fits : Tree → Prop := schema.Fits FieldFits

theorem takes_fields : ∀ f ∈ schema.fields, f.Takes (FieldFits f.name) := by
  simp only [schema, List.forall_mem_cons, List.not_mem_nil, false_imp_iff, implies_true, and_true]
  refine ⟨?_, ?_, ?_⟩
  · exact Field.Keeps.takes (fun _ _ => rfl)
      (reads_readList (AttributeEntry.lawful_schema.reads_read AttributeEntry.takes_fields))
  · exact Field.Keeps.takes (fun _ _ => rfl)
      (reads_readList (CompatRule.lawful_schema.reads_read CompatRule.takes_fields))
  · exact Field.Keeps.takes (fun _ _ => rfl)
      (reads_readList (MergeRule.lawful_schema.reads_read MergeRule.takes_fields))

/-- How the lists of entries may differ: entry by entry, each in one of its spellings. -/
def SameField : String → Tree → Tree → Prop
  | "attr" => Listwise (AttributeEntry.schema.Respelled fun _ => Similar)
  | "compat_rule" => Listwise (CompatRule.schema.Respelled fun _ => Similar)
  | _ => Listwise (MergeRule.schema.Respelled fun _ => Similar)

/-- The trees are spellings of one manifest. -/
def Respelled : Tree → Tree → Prop := schema.Respelled SameField

/-- Lists of records are read alike if they differ in the spellings of the records only. -/
theorem readList_respelled {ρ : Type} {s : Schema ρ} (hs : s.Lawful) (fits : String → Tree → Prop)
    (hfits : ∀ f ∈ s.fields, f.Takes (fits f.name)) {t u : Tree}
    (h : Listwise (s.Respelled fun _ => Similar) t u) :
    (readList s.read t).toOption = (readList s.read u).toOption :=
  readList_listwise (fun _ _ => hs.read_similar hfits)
    (fun _ _ => hs.read_respelled hfits fun f hf => (hfits f hf).similar) h

theorem agree_of_sameField : ∀ f ∈ schema.fields, ∀ t u, SameField f.name t u → f.Agree t u := by
  simp only [schema, List.forall_mem_cons, List.not_mem_nil, false_imp_iff, implies_true, and_true]
  refine ⟨fun t u h => ?_, fun t u h => ?_, fun t u h => ?_⟩
  · exact Field.Keeps.agree (fun _ _ => rfl)
      (readList_respelled AttributeEntry.lawful_schema _ AttributeEntry.takes_fields h)
  · exact Field.Keeps.agree (fun _ _ => rfl)
      (readList_respelled CompatRule.lawful_schema (fun _ => IsText) CompatRule.takes_fields h)
  · exact Field.Keeps.agree (fun _ _ => rfl)
      (readList_respelled MergeRule.lawful_schema (fun _ => IsText) MergeRule.takes_fields h)

theorem read_respelled {t u : Tree} (h : Respelled t u) :
    (schema.read t).toOption = (schema.read u).toOption :=
  lawful_schema.read_respelled takes_fields agree_of_sameField h

theorem isSome_read_iff (t : Tree) : (schema.read t).toOption.isSome = true ↔ Fits t :=
  lawful_schema.isSome_read takes_fields

/-! ## Source texts -/

theorem load_of_read {source : String} {d : Document} (hd : document? source = some d) {m : Manifest}
    (hm : (schema.read d.tree).toOption = some m) (file : String) :
    load file source = m.registry.mapError .fault := by
  have hread : schema.read d.tree = .ok m := by
    cases hread : schema.read d.tree with
    | error x => rw [hread] at hm; cases hm
    | ok m' => rw [hread] at hm; cases hm; rfl
  rw [load, Schema.readSource, hd]
  dsimp only
  rw [hread]
  rfl

theorem load_of_read_none {source : String} {d : Document} (hd : document? source = some d)
    (hm : (schema.read d.tree).toOption = none) (file : String) :
    ∃ x, load file source = .error (.defect file source x) := by
  rw [load, Schema.readSource, hd]
  dsimp only
  cases hread : schema.read d.tree with
  | error x => exact ⟨_, rfl⟩
  | ok m => rw [hread] at hm; cases hm

/-- Documents that are spellings of one manifest load the same registry, or both are defects, or they
have the same fault. A document is a defect if it does not have the shape of a manifest, and only then:
no fault of an entry is told first. -/
theorem load_respelled (file : String) :
    (∀ source other d e, document? source = some d → document? other = some e →
      Respelled d.tree e.tree →
      (∃ r, load file source = .ok r ∧ load file other = .ok r) ∨
      (∃ x y, load file source = .error (.defect file source x) ∧
        load file other = .error (.defect file other y)) ∨
      ∃ f, load file source = .error (.fault f) ∧ load file other = .error (.fault f)) ∧
    ∀ source d, document? source = some d →
      ((∃ x, load file source = .error (.defect file source x)) ↔ ¬ Fits d.tree) := by
  constructor
  · intro source other d e hd he h
    have hread := read_respelled h
    cases hm : (schema.read d.tree).toOption with
    | none =>
        obtain ⟨x, hx⟩ := load_of_read_none hd hm file
        obtain ⟨y, hy⟩ := load_of_read_none he (hread.symm.trans hm) file
        exact .inr (.inl ⟨x, y, hx, hy⟩)
    | some m =>
        rw [load_of_read hd hm, load_of_read he (hread.symm.trans hm)]
        cases m.registry with
        | ok r => exact .inl ⟨r, rfl, rfl⟩
        | error f => exact .inr (.inr ⟨f, rfl, rfl⟩)
  · intro source d hd
    rw [← isSome_read_iff]
    cases hm : (schema.read d.tree).toOption with
    | none => exact iff_of_true (load_of_read_none hd hm file) nofun
    | some m =>
        rw [load_of_read hd hm]
        refine iff_of_false ?_ (not_not.mpr rfl)
        rintro ⟨x, hx⟩
        cases hregistry : m.registry with
        | ok r => rw [hregistry] at hx; cases hx
        | error f => rw [hregistry] at hx; cases hx

/-- The keys of an attribute come in another order, one of them is an alias, or there are no keys. In the
last document the name of an attribute is a fault, but what comes after it is a defect. -/
theorem load_respelled_listed :
    let named := "[[attr]]\nkind = \"IntAttr\"\nAttrString = \"a\"\nname = \"A\"\n"
    let listed := "attr = [[\"A\", \"IntAttr\", \"a\"]]\n"
    let defective := "attr = [[\"\", \"IntAttr\", \"a\"]]\nmerge_rule = 5\n"
    (∃ r, load "m.toml" named = .ok r ∧ load "m.toml" listed = .ok r) ∧
      ∃ x, load "m.toml" defective = .error (.defect "m.toml" defective x) := by
  intro named listed defective
  let namedTree : Tree := .table ⟨0, 54⟩ .header
    [(⟨"attr", ⟨2, 6⟩⟩, .array ⟨0, 8⟩ .headers [.table ⟨0, 8⟩ .header
      [(⟨"kind", ⟨9, 13⟩⟩, .leaf ⟨16, 25⟩ (.text "IntAttr")),
        (⟨"AttrString", ⟨26, 36⟩⟩, .leaf ⟨39, 42⟩ (.text "a")),
        (⟨"name", ⟨43, 47⟩⟩, .leaf ⟨50, 53⟩ (.text "A"))]])]
  let listedTree : Tree := .table ⟨0, 31⟩ .header
    [(⟨"attr", ⟨0, 4⟩⟩, .array ⟨7, 30⟩ .inline [.array ⟨8, 29⟩ .inline
      [.leaf ⟨9, 12⟩ (.text "A"), .leaf ⟨14, 23⟩ (.text "IntAttr"), .leaf ⟨25, 28⟩ (.text "a")]])]
  let defectiveTree : Tree := .table ⟨0, 45⟩ .header
    [(⟨"attr", ⟨0, 4⟩⟩, .array ⟨7, 29⟩ .inline [.array ⟨8, 28⟩ .inline
        [.leaf ⟨9, 11⟩ (.text ""), .leaf ⟨13, 22⟩ (.text "IntAttr"), .leaf ⟨24, 27⟩ (.text "a")]]),
      (⟨"merge_rule", ⟨30, 40⟩⟩, .leaf ⟨43, 44⟩ (.integer 5))]
  have hnamed : document? named = some ⟨namedTree, true⟩ := by
    unfold named namedTree
    decide +kernel
  have hlisted : document? listed = some ⟨listedTree, true⟩ := by
    unfold listed listedTree
    decide +kernel
  have hdefective : document? defective = some ⟨defectiveTree, true⟩ := by
    unfold defective defectiveTree
    decide +kernel
  have hrespelled : Respelled namedTree listedTree := by
    refine .keys (.refl _) (.cons (.known List.mem_cons_self (by decide) (by decide) ?_) .nil)
    refine .array (.cons (.listed (List.perm_append_singleton _ [_, _]) ?_) .nil)
    exact .cons (by decide) (.leaf _) (.cons (by decide) (.leaf _) (.cons (by decide) (.leaf _) .nil))
  have hdefect : ¬ Fits defectiveTree := by
    intro h
    unfold defectiveTree at h
    cases h with
    | table hvalues honce hrequired =>
        obtain ⟨f, hf, hkey, hfit⟩ := hvalues _ (List.mem_cons_of_mem _ List.mem_cons_self)
        simp only [schema, List.mem_cons, List.not_mem_nil, or_false] at hf
        rcases hf with rfl | rfl | rfl
        · exact absurd hkey (by decide)
        · exact absurd hkey (by decide)
        · cases hfit
  refine ⟨?_, ((load_respelled "m.toml").2 defective _ hdefective).mpr hdefect⟩
  have hloaded : (load "m.toml" listed).toOption.isSome = true := by
    unfold listed
    decide +kernel
  rcases (load_respelled "m.toml").1 named listed _ _ hnamed hlisted hrespelled with
    h | ⟨x, y, -, hy⟩ | ⟨f, -, hf⟩
  · exact h
  · rw [hy] at hloaded
    cases hloaded
  · rw [hf] at hloaded
    cases hloaded

end Manifest

end AttributeTables
