import AttributeTables.Proofs.Toml.Values
import Mathlib.Data.List.Nodup
import Mathlib.Data.List.Pairwise

/-!
# Records that say the same

A record is what its fields are set to. A table sets them in the order of its keys, an array in their
declared order, but fields do not get into each other's way. So it makes no difference in which of its
spellings a record is written.
-/

namespace AttributeTables.Toml

variable {ρ : Type} {s : Schema ρ} {as bs : List (Field ρ × Tree)} {t u : Tree}

/-! ## Setting fields -/

/-- It makes no difference which of the fields is set first. -/
def Field.Independent (f f' : Field ρ) : Prop :=
  ∀ (t t' : Tree) (record : ρ),
    ((f.put t record).toOption.bind fun record => (f'.put t' record).toOption) =
      (f'.put t' record).toOption.bind fun record => (f.put t record).toOption

instance : Std.Symm (@Field.Independent ρ) where
  symm _ _ h := fun t t' record => (h t' t record).symm

/-- Both trees set the field to the same value, or neither of them to any. -/
def Field.Agree (f : Field ρ) (t u : Tree) : Prop :=
  ∀ record, (f.put t record).toOption = (f.put u record).toOption

/-- The trees set one field, and set it to the same value. -/
def SameAssignment (a b : Field ρ × Tree) : Prop := a.1 = b.1 ∧ a.1.Agree a.2 b.2

/-- The field takes the trees of a shape, and does not tell similar ones apart. -/
structure Field.Takes (f : Field ρ) (fits : Tree → Prop) : Prop where
  isSome_iff : ∀ t record, (f.put t record).toOption.isSome = true ↔ fits t
  similar : ∀ t u, Similar t u → f.Agree t u

/-- The field keeps what a reader makes of a tree. -/
def Field.Keeps {α : Type} (f : Field ρ) (read : Tree → Fitting α) (set : α → ρ → ρ) : Prop :=
  ∀ t record, f.put t record = read t >>= fun a => pure (set a record)

namespace Field.Keeps

variable {α β : Type} {f f' : Field ρ} {read : Tree → Fitting α} {read' : Tree → Fitting β}
  {set : α → ρ → ρ} {set' : β → ρ → ρ}

theorem put_toOption (h : f.Keeps read set) (t : Tree) (record : ρ) :
    (f.put t record).toOption = (read t).toOption.map (set · record) := by
  rw [h t record]
  cases read t <;> rfl

theorem independent (h : f.Keeps read set) (h' : f'.Keeps read' set')
    (hcomm : ∀ a b record, set' b (set a record) = set a (set' b record)) : f.Independent f' := by
  intro t t' record
  simp only [h.put_toOption, h'.put_toOption]
  cases (read t).toOption <;> cases (read' t').toOption <;> simp [hcomm]

theorem agree (h : f.Keeps read set) (htu : (read t).toOption = (read u).toOption) : f.Agree t u := by
  intro record
  rw [h.put_toOption, h.put_toOption, htu]

theorem takes (h : f.Keeps read set) {fits : Tree → Prop} (hread : Reads read fits) : f.Takes fits where
  isSome_iff t record := by rw [h.put_toOption, Option.isSome_map, hread.isSome_iff]
  similar t u htu := h.agree (hread.similar t u htu)

end Field.Keeps

/-! ## Schemas -/

namespace Schema

/-- The fields have names and keys of their own, and do not get into each other's way. -/
structure Lawful (s : Schema ρ) : Prop where
  names_nodup : (s.fields.map (·.name)).Nodup
  keys_nodup : s.keys.Nodup
  independent : s.fields.Pairwise Field.Independent

theorem mem_keys {key : String} : key ∈ s.keys ↔ ∃ f ∈ s.fields, key ∈ f.keys := List.mem_flatMap

theorem field?_eq_none_iff {key : String} : s.field? key = none ↔ key ∉ s.keys := by
  simp [field?, mem_keys]

theorem mem_fields_of_field? {key : String} {f : Field ρ} (h : s.field? key = some f) :
    f ∈ s.fields ∧ key ∈ f.keys :=
  ⟨List.mem_of_find?_eq_some h, by simpa using List.find?_some h⟩

theorem Lawful.field?_eq_some_iff (hs : s.Lawful) {key : String} {f : Field ρ} :
    s.field? key = some f ↔ f ∈ s.fields ∧ key ∈ f.keys := by
  refine ⟨mem_fields_of_field?, fun ⟨hf, hkey⟩ => ?_⟩
  cases hfield : s.field? key with
  | none => exact absurd (mem_keys.mpr ⟨f, hf, hkey⟩) (field?_eq_none_iff.mp hfield)
  | some g =>
      obtain ⟨hg, hkey'⟩ := mem_fields_of_field? hfield
      by_contra hne
      have : Std.Symm (Function.onFun List.Disjoint fun f : Field ρ => f.keys) :=
        ⟨fun _ _ h _ hg hf => h hf hg⟩
      have hdisjoint := (List.nodup_flatMap.mp hs.keys_nodup).2
      exact hdisjoint.forall hg hf (fun heq => hne (by rw [heq])) hkey' hkey

theorem Lawful.eq_of_name_eq (hs : s.Lawful) {f f' : Field ρ} (hf : f ∈ s.fields) (hf' : f' ∈ s.fields)
    (h : f.name = f'.name) : f = f' :=
  List.inj_on_of_nodup_map hs.names_nodup hf hf' h

/-! ## Assignments -/

/-- What the entries of a table set the fields to. -/
def assignments (s : Schema ρ) (entries : Entries) : List (Field ρ × Tree) :=
  entries.filterMap fun entry => (s.field? entry.1.text).map (·, entry.2)

/-- Every key stands for a field. -/
def Knows (s : Schema ρ) (entries : Entries) : Prop :=
  ∀ entry ∈ entries, (s.field? entry.1.text).isSome = true

instance (entries : Entries) : Decidable (s.Knows entries) := List.decidableBAll _ entries

/-- Sets one field. -/
def assign (record : Option ρ) (a : Field ρ × Tree) : Option ρ :=
  record.bind fun record => (a.1.put a.2 record).toOption

/-- With those seen before, every field is set once at most, and if it cannot be missing, it is set. -/
def IsComplete (s : Schema ρ) (seen : List String) (as : List (Field ρ × Tree)) : Prop :=
  (as.map (·.1.name)).Nodup ∧ (∀ a ∈ as, a.1.name ∉ seen) ∧
    ∀ f ∈ s.fields, f.isOptional = false → f.name ∈ seen ∨ f.name ∈ as.map (·.1.name)

instance (seen : List String) : Decidable (s.IsComplete seen as) := by
  unfold IsComplete
  infer_instance

/-- The record with the fields set, if that works. -/
def build (s : Schema ρ) (as : List (Field ρ × Tree)) : Option ρ :=
  if s.IsComplete [] as then as.foldl assign (some s.blank) else none

/-- The record of a table with the entries. -/
def fromEntries (s : Schema ρ) (entries : Entries) : Option ρ :=
  if s.Knows entries then s.build (s.assignments entries) else none

theorem isComplete_cons {seen : List String} {a : Field ρ × Tree} : s.IsComplete seen (a :: as) ↔
    a.1.name ∉ seen ∧ s.IsComplete (a.1.name :: seen) as := by
  simp only [IsComplete, List.map_cons, List.nodup_cons, List.mem_cons, not_or, List.mem_map,
    not_exists, not_and]
  grind

theorem foldl_assign_none (as : List (Field ρ × Tree)) : as.foldl assign none = none := by
  induction as with
  | nil => rfl
  | cons a as ih => exact ih

/-- The order does not count. -/
theorem Lawful.build_perm (hs : s.Lawful) (has : ∀ a ∈ as, a.1 ∈ s.fields) (h : as.Perm bs) :
    s.build as = s.build bs := by
  have hnames := h.map (·.1.name)
  have hcomplete : s.IsComplete [] as ↔ s.IsComplete [] bs := by
    simp only [IsComplete, hnames.nodup_iff, h.mem_iff, hnames.mem_iff]
  rw [build, build]
  by_cases has' : s.IsComplete [] as
  · rw [if_pos has', if_pos (hcomplete.mp has')]
    refine h.foldl_eq' (fun a ha b hb record => ?_) _
    cases record with
    | none => rfl
    | some record =>
        -- No field is set twice, so two assignments of one field are the same assignment.
        by_cases hname : a.1.name = b.1.name
        · rw [List.inj_on_of_nodup_map has'.1 ha hb hname]
        · have hne : a.1 ≠ b.1 := fun heq => hname (by rw [heq])
          exact hs.independent.forall (has a ha) (has b hb) hne a.2 b.2 record
  · rw [if_neg has', if_neg (mt hcomplete.mpr has')]

/-- Only the values count that are read from the trees. -/
theorem build_congr (h : List.Forall₂ SameAssignment as bs) :
    s.build as = s.build bs := by
  have hnames : as.map (·.1.name) = bs.map (·.1.name) := by
    induction h with
    | nil => rfl
    | cons hab _ ih => rw [List.map_cons, List.map_cons, hab.1, ih]
  have hassign : ∀ record, as.foldl assign record = bs.foldl assign record := by
    clear hnames
    induction h with
    | nil => exact fun _ => rfl
    | @cons a b as bs hab _ ih =>
        intro record
        have hhead : assign record a = assign record b := by
          rw [assign, assign, ← hab.1]
          exact congrArg (Option.bind record) (funext hab.2)
        rw [List.foldl_cons, List.foldl_cons, hhead, ih]
  rw [build, build, hassign]
  refine if_congr ?_ rfl rfl
  simp only [IsComplete, hnames, List.not_mem_nil, not_false_eq_true, implies_true]

/-! ## Reading -/

theorem assignments_cons {entry : Key × Tree} {f : Field ρ} (h : s.field? entry.1.text = some f)
    (entries : Entries) : s.assignments (entry :: entries) = (f, entry.2) :: s.assignments entries :=
  List.filterMap_cons_some (by rw [h]; rfl)

theorem assignments_cons_none {entry : Key × Tree} (h : s.field? entry.1.text = none)
    (entries : Entries) : s.assignments (entry :: entries) = s.assignments entries :=
  List.filterMap_cons_none (by rw [h]; rfl)

theorem find?_missing_eq_none_iff {seen : List String} :
    (s.fields.find? fun f => !f.isOptional && !seen.contains f.name) = none ↔ s.IsComplete seen [] := by
  simp [IsComplete, List.find?_eq_none]

theorem visit_toOption (span : Span) (entries : Entries) (seen : List String) (record : ρ) :
    (s.visit span entries seen record).toOption =
      if s.Knows entries ∧ s.IsComplete seen (s.assignments entries) then
        (s.assignments entries).foldl assign (some record)
      else none := by
  -- The entries before are in the record, and of their fields only the names are kept.
  induction entries generalizing seen record with
  | nil =>
      rw [visit]
      cases hmissing : s.fields.find? fun f => !f.isOptional && !seen.contains f.name with
      | none => exact (if_pos ⟨nofun, find?_missing_eq_none_iff.mp hmissing⟩).symm
      | some f =>
          refine (if_neg fun h => ?_).symm
          rw [find?_missing_eq_none_iff.mpr h.2] at hmissing
          cases hmissing
  | cons entry entries ih =>
      obtain ⟨key, value⟩ := entry
      rw [visit]
      cases hfield : s.field? key.text with
      | none =>
          refine (if_neg fun h => ?_).symm
          have hknown := h.1 _ List.mem_cons_self
          rw [hfield] at hknown
          cases hknown
      | some f =>
          have hknown : s.Knows ((key, value) :: entries) ↔ s.Knows entries := by
            simp [Knows, hfield]
          have hcomplete : (s.Knows ((key, value) :: entries) ∧
              s.IsComplete seen (s.assignments ((key, value) :: entries))) ↔
              f.name ∉ seen ∧ s.Knows entries ∧
                s.IsComplete (f.name :: seen) (s.assignments entries) := by
            rw [hknown, assignments_cons hfield, isComplete_cons, and_left_comm]
          rw [if_congr hcomplete rfl rfl, assignments_cons hfield, List.foldl_cons]
          dsimp only
          by_cases hseen : f.name ∈ seen
          · rw [if_pos (by simpa using hseen), if_neg fun h => h.1 hseen]
            rfl
          · rw [if_neg (by simpa using hseen), toOption_bind]
            -- After a value that cannot be read nothing else counts, on either side.
            change _ = if _ then
              (s.assignments entries).foldl assign (f.put value record).toOption else none
            cases (f.put value record).toOption with
            | none => rw [foldl_assign_none, ite_self]; rfl
            | some record =>
                rw [Option.bind_some, ih]
                exact if_congr (and_iff_right hseen).symm rfl rfl

theorem fill_toOption (span : Span) (length : Nat) (fields : List (Field ρ)) (items : List Tree)
    (record : ρ) : (s.fill span length fields items record).toOption =
      if ∀ f ∈ fields.drop items.length, f.isOptional = true then
        (fields.zip items).foldl assign (some record)
      else none := by
  induction fields generalizing items record with
  | nil => cases items <;> rfl
  | cons f fields ih =>
      cases items with
      | nil =>
          have hrest : (∀ g ∈ (f :: fields).drop ([] : List Tree).length, g.isOptional = true) ↔
              f.isOptional = true ∧ ∀ g ∈ fields.drop ([] : List Tree).length, g.isOptional = true :=
            List.forall_mem_cons
          rw [fill, if_congr hrest rfl rfl]
          by_cases hf : f.isOptional = true
          · rw [if_pos hf, ih, if_congr (and_iff_right hf) rfl rfl, List.zip_nil_right,
              List.zip_nil_right]
          · rw [if_neg hf, if_neg fun h => hf h.1]
            rfl
      | cons item items =>
          rw [fill, toOption_bind, List.zip_cons_cons, List.foldl_cons]
          change _ = if _ then (fields.zip items).foldl assign (f.put item record).toOption else none
          cases (f.put item record).toOption with
          | none => rw [foldl_assign_none, ite_self]; rfl
          | some record => rw [Option.bind_some, ih]; rfl

theorem mem_assignments {entries : Entries} {a : Field ρ × Tree} : a ∈ s.assignments entries ↔
    ∃ entry ∈ entries, s.field? entry.1.text = some a.1 ∧ a.2 = entry.2 := by
  simp only [assignments, List.mem_filterMap, Option.map_eq_some_iff, Prod.ext_iff]
  refine exists_congr fun entry => and_congr_right fun _ => ?_
  constructor
  · rintro ⟨f, hf, rfl, hvalue⟩
    exact ⟨hf, hvalue.symm⟩
  · rintro ⟨hf, hvalue⟩
    exact ⟨a.1, hf, rfl, hvalue.symm⟩

theorem mem_fields_of_mem_assignments {entries : Entries} {a : Field ρ × Tree}
    (ha : a ∈ s.assignments entries) : a.1 ∈ s.fields := by
  obtain ⟨entry, -, hf, -⟩ := mem_assignments.mp ha
  exact (mem_fields_of_field? hf).1

theorem map_fst_zip (fields : List (Field ρ)) (items : List Tree) :
    (fields.zip items).map (·.1) = fields.take items.length := by
  induction fields generalizing items with
  | nil => simp
  | cons f fields ih =>
      cases items with
      | nil => rfl
      | cons item items =>
          rw [List.zip_cons_cons, List.map_cons, ih]
          rfl

theorem Lawful.isComplete_zip_iff (hs : s.Lawful) (items : List Tree) :
    s.IsComplete [] (s.fields.zip items) ↔ ∀ f ∈ s.fields.drop items.length, f.isOptional = true := by
  have hnames : (s.fields.zip items).map (·.1.name) = (s.fields.take items.length).map (·.name) := by
    rw [← map_fst_zip, List.map_map]
    rfl
  have hsplit : s.fields.take items.length ++ s.fields.drop items.length = s.fields :=
    List.take_append_drop _ _
  have hnodup := hs.names_nodup
  rw [← hsplit, List.map_append, List.nodup_append] at hnodup
  simp only [IsComplete, hnames, List.not_mem_nil, not_false_eq_true, implies_true, false_or, true_and]
  constructor
  · rintro ⟨-, hrequired⟩ f hf
    by_contra hoptional
    have htaken := hrequired f (List.mem_of_mem_drop hf) (by simpa using hoptional)
    exact hnodup.2.2 _ htaken _ (List.mem_map_of_mem hf) rfl
  · intro hrest
    refine ⟨hnodup.1, fun f hf hrequired => List.mem_map_of_mem ?_⟩
    rw [← hsplit] at hf
    rcases List.mem_append.mp hf with hf | hf
    · exact hf
    · rw [hrest f hf] at hrequired
      cases hrequired

theorem Lawful.fromEntries_perm (hs : s.Lawful) {entries entries' : Entries}
    (h : entries.Perm entries') : s.fromEntries entries = s.fromEntries entries' := by
  have hassignments : (s.assignments entries).Perm (s.assignments entries') := h.filterMap _
  refine if_congr ?_ (hs.build_perm (fun a ha => mem_fields_of_mem_assignments ha) hassignments) rfl
  simp only [Knows, h.mem_iff]

theorem Lawful.read_table (hs : s.Lawful) (span : Span) (origin : TableOrigin) (entries : Entries) :
    (s.read (.table span origin entries)).toOption = s.fromEntries entries := by
  rw [read, visit_toOption, ite_and]
  exact hs.fromEntries_perm (List.mergeSort_perm _ _)

theorem Lawful.read_array (hs : s.Lawful) (span : Span) (origin : ArrayOrigin) (items : List Tree) :
    (s.read (.array span origin items)).toOption = s.build (s.fields.zip items) := by
  rw [read, fill_toOption, build]
  exact if_congr (hs.isComplete_zip_iff items).symm rfl rfl

theorem read_leaf (span : Span) (value : Scalar) : (s.read (.leaf span value)).toOption = none := by
  cases value <;> rfl

/-! ## Spellings -/

/-- Two entries of tables that say the same, possibly under different keys of one field. How the values
of a field may differ depends on its name. -/
inductive SameEntry (s : Schema ρ) (same : String → Tree → Tree → Prop) :
    Key × Tree → Key × Tree → Prop
  | known {f : Field ρ} {key key' : Key} {value value' : Tree} (hf : f ∈ s.fields)
      (hkey : key.text ∈ f.keys) (hkey' : key'.text ∈ f.keys) (hvalue : same f.name value value') :
      SameEntry s same (key, value) (key', value')
  | unknown {key key' : Key} {value value' : Tree} (hkey : key.text ∉ s.keys)
      (hkey' : key'.text = key.text) (hvalue : Similar value value') :
      SameEntry s same (key, value) (key', value')

/-- The entries and the items are for the same fields, one by one: all fields up to the ones that are
left out at the end. -/
inductive SameFields (same : String → Tree → Tree → Prop) :
    List (Field ρ) → Entries → List Tree → Prop
  | nil {fields : List (Field ρ)} : SameFields same fields [] []
  | cons {f : Field ρ} {fields : List (Field ρ)} {key : Key} {value item : Tree} {entries : Entries}
      {items : List Tree} (hkey : key.text ∈ f.keys) (hvalue : same f.name value item)
      (h : SameFields same fields entries items) :
      SameFields same (f :: fields) ((key, value) :: entries) (item :: items)

/-- The trees are spellings of one record: tables whose keys come in another order or are other keys of
the same fields, or a table and an array. -/
inductive Respelled (s : Schema ρ) (same : String → Tree → Tree → Prop) : Tree → Tree → Prop
  | similar {t u : Tree} (h : Similar t u) : Respelled s same t u
  | keys {span span' : Span} {origin origin' : TableOrigin} {entries ordered entries' : Entries}
      (horder : entries.Perm ordered) (h : List.Forall₂ (s.SameEntry same) ordered entries') :
      Respelled s same (.table span origin entries) (.table span' origin' entries')
  | listed {span span' : Span} {origin : TableOrigin} {origin' : ArrayOrigin}
      {entries ordered : Entries} {items : List Tree} (horder : entries.Perm ordered)
      (h : SameFields same s.fields ordered items) :
      Respelled s same (.table span origin entries) (.array span' origin' items)
  | unlisted {span span' : Span} {origin : ArrayOrigin} {origin' : TableOrigin}
      {entries ordered : Entries} {items : List Tree} (horder : entries.Perm ordered)
      (h : SameFields (fun name t u => same name u t) s.fields ordered items) :
      Respelled s same (.array span origin items) (.table span' origin' entries)

/-- The entries stand for the same field, if for any, and set it to the same value. -/
def EntryAgree (s : Schema ρ) (a b : Key × Tree) : Prop :=
  s.field? a.1.text = s.field? b.1.text ∧ ∀ f, s.field? a.1.text = some f → f.Agree a.2 b.2

theorem fromEntries_congr {entries entries' : Entries}
    (h : List.Forall₂ s.EntryAgree entries entries') :
    s.fromEntries entries = s.fromEntries entries' := by
  have hknown : s.Knows entries ↔ s.Knows entries' := by
    induction h with
    | nil => rfl
    | cons hab _ ih =>
        rw [Knows, Knows, List.forall_mem_cons, List.forall_mem_cons, hab.1]
        exact and_congr_right fun _ => ih
  have hassignments : List.Forall₂ SameAssignment (s.assignments entries)
      (s.assignments entries') := by
    clear hknown
    induction h with
    | nil => exact .nil
    | @cons a b _ _ hab _ ih =>
        cases hfield : s.field? a.1.text with
        | none =>
            rw [assignments_cons_none hfield, assignments_cons_none (hab.1.symm.trans hfield)]
            exact ih
        | some f =>
            rw [assignments_cons hfield, assignments_cons (hab.1.symm.trans hfield)]
            exact .cons ⟨rfl, hab.2 f hfield⟩ ih
  exact if_congr hknown (build_congr hassignments) rfl

theorem Lawful.sameAssignment_of_sameFields (hs : s.Lawful) {same : String → Tree → Tree → Prop}
    (hsame : ∀ f ∈ s.fields, ∀ t u, same f.name t u → f.Agree t u) {fields : List (Field ρ)}
    (hfields : fields ⊆ s.fields) {entries : Entries} {items : List Tree}
    (h : SameFields same fields entries items) : s.Knows entries ∧
      List.Forall₂ SameAssignment (s.assignments entries)
        (fields.zip items) := by
  induction h with
  | nil => exact ⟨nofun, by rw [List.zip_nil_right]; exact .nil⟩
  | @cons f fields key value item entries items hkey hvalue _ ih =>
      obtain ⟨hf, hfields⟩ := List.cons_subset.mp hfields
      obtain ⟨hknown, hassignments⟩ := ih hfields
      have hfield := hs.field?_eq_some_iff.mpr ⟨hf, hkey⟩
      rw [assignments_cons hfield, List.zip_cons_cons]
      exact ⟨List.forall_mem_cons.mpr ⟨by rw [hfield]; rfl, hknown⟩,
        .cons ⟨rfl, hsame f hf _ _ hvalue⟩ hassignments⟩

theorem Lawful.fromEntries_of_sameFields (hs : s.Lawful) {same : String → Tree → Tree → Prop}
    (hsame : ∀ f ∈ s.fields, ∀ t u, same f.name t u → f.Agree t u) {entries : Entries}
    {items : List Tree} (h : SameFields same s.fields entries items) :
    s.fromEntries entries = s.build (s.fields.zip items) := by
  obtain ⟨hknown, hassignments⟩ := hs.sameAssignment_of_sameFields hsame (List.Subset.refl _) h
  rw [fromEntries, if_pos hknown, build_congr hassignments]

theorem sameAssignment_zip {fields : List (Field ρ)}
    (hsimilar : ∀ f ∈ fields, ∀ t u, Similar t u → f.Agree t u) {items items' : List Tree}
    (h : List.Forall₂ Similar items items') :
    List.Forall₂ SameAssignment (fields.zip items) (fields.zip items') := by
  induction h generalizing fields with
  | nil => rw [List.zip_nil_right]; exact .nil
  | cons htu _ ih =>
      cases fields with
      | nil => exact .nil
      | cons f fields =>
          obtain ⟨hf, hfields⟩ := List.forall_mem_cons.mp hsimilar
          exact .cons ⟨rfl, hf _ _ htu⟩ (ih hfields)

section Readers

variable {fits : String → Tree → Prop} (hfits : ∀ f ∈ s.fields, f.Takes (fits f.name))
include hfits

theorem Lawful.read_similar (hs : s.Lawful) (h : Similar t u) :
    (s.read t).toOption = (s.read u).toOption := by
  cases h with
  | leaf value => rw [read_leaf, read_leaf]
  | array hitems =>
      have hassignments := sameAssignment_zip (fun f hf => (hfits f hf).similar) hitems
      rw [hs.read_array, hs.read_array, build_congr hassignments]
  | table horder hkeys hvalues =>
      rw [hs.read_table, hs.read_table, hs.fromEntries_perm horder]
      refine fromEntries_congr ((forall₂_entries hkeys hvalues).imp fun a b hab => ?_)
      exact ⟨by rw [hab.1], fun g hg => (hfits g (mem_fields_of_field? hg).1).similar _ _ hab.2⟩

/-- What reads a record does not tell its spellings apart. -/
theorem Lawful.read_respelled (hs : s.Lawful) {same : String → Tree → Tree → Prop}
    (hsame : ∀ f ∈ s.fields, ∀ t u, same f.name t u → f.Agree t u) (h : s.Respelled same t u) :
    (s.read t).toOption = (s.read u).toOption := by
  cases h with
  | similar h => exact hs.read_similar hfits h
  | keys horder h =>
      rw [hs.read_table, hs.read_table, hs.fromEntries_perm horder]
      refine fromEntries_congr (h.imp fun a b hab => ?_)
      cases hab with
      | known hf hkey hkey' hvalue =>
          have hfield := hs.field?_eq_some_iff.mpr ⟨hf, hkey⟩
          refine ⟨hfield.trans (hs.field?_eq_some_iff.mpr ⟨hf, hkey'⟩).symm, fun g hg => ?_⟩
          cases hfield.symm.trans hg
          exact hsame _ hf _ _ hvalue
      | unknown hkey hkey' hvalue =>
          exact ⟨by rw [hkey'], fun g hg => (hfits g (mem_fields_of_field? hg).1).similar _ _ hvalue⟩
  | listed horder h =>
      rw [hs.read_table, hs.read_array, hs.fromEntries_perm horder,
        hs.fromEntries_of_sameFields hsame h]
  | unlisted horder h =>
      have hsame' : ∀ f ∈ s.fields, ∀ t u, same f.name u t → f.Agree t u :=
        fun f hf t u htu record => (hsame f hf u t htu record).symm
      rw [hs.read_table, hs.read_array, hs.fromEntries_perm horder,
        hs.fromEntries_of_sameFields hsame' h]

end Readers

/-! ## Shapes -/

/-- The tree has the shape of a record. A table has only keys of fields, no field under two of its keys,
and every field that cannot be missing. An array ends where only fields are left that can be missing;
what it has after the last field does not count. -/
inductive Fits (s : Schema ρ) (fits : String → Tree → Prop) : Tree → Prop
  | table {span : Span} {origin : TableOrigin} {entries : Entries}
      (hvalues : ∀ entry ∈ entries, ∃ f ∈ s.fields, entry.1.text ∈ f.keys ∧ fits f.name entry.2)
      (honce : entries.Pairwise fun a b => ∀ f ∈ s.fields, a.1.text ∈ f.keys → b.1.text ∉ f.keys)
      (hrequired : ∀ f ∈ s.fields, f.isOptional = false → ∃ entry ∈ entries, entry.1.text ∈ f.keys) :
      Fits s fits (.table span origin entries)
  | array {span : Span} {origin : ArrayOrigin} {items : List Tree}
      (hvalues : ∀ p ∈ s.fields.zip items, fits p.1.name p.2)
      (hrest : ∀ f ∈ s.fields.drop items.length, f.isOptional = true) :
      Fits s fits (.array span origin items)

theorem Lawful.isComplete_assignments_iff (hs : s.Lawful) {entries : Entries} :
    s.IsComplete [] (s.assignments entries) ↔
      (entries.Pairwise fun a b => ∀ f ∈ s.fields, a.1.text ∈ f.keys → b.1.text ∉ f.keys) ∧
      ∀ f ∈ s.fields, f.isOptional = false → ∃ entry ∈ entries, entry.1.text ∈ f.keys := by
  have honce : ((s.assignments entries).map (·.1.name)).Nodup ↔
      entries.Pairwise fun a b => ∀ f ∈ s.fields, a.1.text ∈ f.keys → b.1.text ∉ f.keys := by
    rw [List.Nodup, List.pairwise_map, assignments, List.pairwise_filterMap]
    simp only [Option.map_eq_some_iff, hs.field?_eq_some_iff]
    refine ⟨fun h => h.imp ?_, fun h => h.imp ?_⟩
    · intro a b hab f hf hkey hkey'
      exact hab _ ⟨f, ⟨hf, hkey⟩, rfl⟩ _ ⟨f, ⟨hf, hkey'⟩, rfl⟩ rfl
    · rintro a b hab _ ⟨f, ⟨hf, hkey⟩, rfl⟩ _ ⟨g, ⟨hg, hkey'⟩, rfl⟩ hname
      cases hs.eq_of_name_eq hf hg hname
      exact hab f hf hkey hkey'
  have hgiven : ∀ f ∈ s.fields, f.name ∈ (s.assignments entries).map (·.1.name) ↔
      ∃ entry ∈ entries, entry.1.text ∈ f.keys := by
    intro f hf
    simp only [List.mem_map, mem_assignments, hs.field?_eq_some_iff]
    constructor
    · rintro ⟨a, ⟨entry, hentry, ⟨ha, hkey⟩, -⟩, hname⟩
      cases hs.eq_of_name_eq ha hf hname
      exact ⟨entry, hentry, hkey⟩
    · rintro ⟨entry, hentry, hkey⟩
      exact ⟨(f, entry.2), ⟨entry, hentry, ⟨hf, hkey⟩, rfl⟩, rfl⟩
  simp only [IsComplete, honce, List.not_mem_nil, not_false_eq_true, implies_true, true_and, false_or]
  exact and_congr_right fun _ => forall₂_congr fun f hf => imp_congr_right fun _ => hgiven f hf

section Shapes

variable {fits : String → Tree → Prop} (hfits : ∀ f ∈ s.fields, f.Takes (fits f.name))
include hfits

theorem isSome_foldl_assign (has : ∀ a ∈ as, a.1 ∈ s.fields) (record : ρ) :
    (as.foldl assign (some record)).isSome = true ↔ ∀ a ∈ as, fits a.1.name a.2 := by
  induction as generalizing record with
  | nil => simp
  | cons a as ih =>
      obtain ⟨ha, has⟩ := List.forall_mem_cons.mp has
      rw [List.foldl_cons, List.forall_mem_cons, ← (hfits a.1 ha).isSome_iff a.2 record]
      change (as.foldl assign (a.1.put a.2 record).toOption).isSome = true ↔ _
      cases (a.1.put a.2 record).toOption with
      | none => simp [foldl_assign_none]
      | some record => simp [ih has]

theorem isSome_build (has : ∀ a ∈ as, a.1 ∈ s.fields) :
    (s.build as).isSome = true ↔ s.IsComplete [] as ∧ ∀ a ∈ as, fits a.1.name a.2 := by
  rw [build, ← isSome_foldl_assign hfits has s.blank]
  by_cases h : s.IsComplete [] as
  · rw [if_pos h, and_iff_right h]
  · rw [if_neg h]
    exact iff_of_false nofun fun h' => h h'.1

theorem isSome_fromEntries {entries : Entries} :
    (s.fromEntries entries).isSome = true ↔ s.Knows entries ∧
      s.IsComplete [] (s.assignments entries) ∧ ∀ a ∈ s.assignments entries, fits a.1.name a.2 := by
  rw [fromEntries, ← isSome_build hfits fun a ha => mem_fields_of_mem_assignments ha]
  by_cases h : s.Knows entries
  · rw [if_pos h, and_iff_right h]
  · rw [if_neg h]
    exact iff_of_false nofun fun h' => h h'.1

/-- A record is read from the trees of its shape, and from no others. -/
theorem Lawful.isSome_read (hs : s.Lawful) : (s.read t).toOption.isSome = true ↔ s.Fits fits t := by
  cases t with
  | leaf span value =>
      rw [read_leaf]
      exact iff_of_false nofun nofun
  | array span origin items =>
      have hfields : ∀ a ∈ s.fields.zip items, a.1 ∈ s.fields := fun a ha => (List.of_mem_zip ha).1
      rw [hs.read_array, isSome_build hfits hfields, hs.isComplete_zip_iff]
      constructor
      · rintro ⟨hrest, hvalues⟩
        exact .array hvalues hrest
      · intro h
        cases h with
        | array hvalues hrest => exact ⟨hrest, hvalues⟩
  | table span origin entries =>
      rw [hs.read_table, isSome_fromEntries hfits, hs.isComplete_assignments_iff]
      constructor
      · rintro ⟨hknown, ⟨honce, hrequired⟩, hvalues⟩
        refine .table (fun entry hentry => ?_) honce hrequired
        obtain ⟨f, hf⟩ := Option.isSome_iff_exists.mp (hknown entry hentry)
        obtain ⟨hmem, hkey⟩ := mem_fields_of_field? hf
        exact ⟨f, hmem, hkey, hvalues (f, entry.2) (mem_assignments.mpr ⟨entry, hentry, hf, rfl⟩)⟩
      · intro h
        cases h with
        | table hvalues honce hrequired =>
            refine ⟨fun entry hentry => ?_, ⟨honce, hrequired⟩, fun a ha => ?_⟩
            · obtain ⟨f, hf, hkey, -⟩ := hvalues entry hentry
              rw [hs.field?_eq_some_iff.mpr ⟨hf, hkey⟩]
              rfl
            · obtain ⟨entry, hentry, hfield, hvalue⟩ := mem_assignments.mp ha
              obtain ⟨f, hf, hkey, hfit⟩ := hvalues entry hentry
              cases (hs.field?_eq_some_iff.mpr ⟨hf, hkey⟩).symm.trans hfield
              rwa [hvalue]

theorem Lawful.reads_read (hs : s.Lawful) : Reads s.read (s.Fits fits) where
  isSome_iff _ := hs.isSome_read hfits
  similar _ _ h := hs.read_similar hfits h

end Shapes

end Schema

end AttributeTables.Toml
