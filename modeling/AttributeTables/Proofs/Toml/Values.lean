import AttributeTables.Proofs.Traversals
import AttributeTables.Toml.Record

/-!
# Values that say the same

Two trees are similar if they differ only in places and in the order of keys. What reads texts, choices
and lists does not tell similar trees apart, and it succeeds for the trees of a certain shape.
-/

namespace AttributeTables.Toml

variable {t u : Tree} {α : Type}

/-! ## Similar trees -/

/-- The trees differ only in the places of values, the ways in which tables and arrays are written, and
the order of keys. -/
inductive Similar : Tree → Tree → Prop
  | leaf {span span' : Span} (value : Scalar) : Similar (.leaf span value) (.leaf span' value)
  | array {span span' : Span} {origin origin' : ArrayOrigin} {items items' : List Tree}
      (hitems : List.Forall₂ Similar items items') :
      Similar (.array span origin items) (.array span' origin' items')
  | table {span span' : Span} {origin origin' : TableOrigin} {entries ordered entries' : Entries}
      (horder : entries.Perm ordered) (hkeys : ordered.map (·.1.text) = entries'.map (·.1.text))
      (hvalues : List.Forall₂ Similar (ordered.map (·.2)) (entries'.map (·.2))) :
      Similar (.table span origin entries) (.table span' origin' entries')

/-- Keys and values that are the same one by one make entries that are. -/
theorem forall₂_entries {R : Tree → Tree → Prop} {entries entries' : Entries}
    (hkeys : entries.map (·.1.text) = entries'.map (·.1.text))
    (hvalues : List.Forall₂ R (entries.map (·.2)) (entries'.map (·.2))) :
    List.Forall₂ (fun a b => a.1.text = b.1.text ∧ R a.2 b.2) entries entries' := by
  induction entries generalizing entries' with
  | nil =>
      cases List.map_eq_nil_iff.mp hkeys.symm
      exact .nil
  | cons entry entries ih =>
      obtain ⟨entry', others, rfl, hkey, hkeys⟩ := List.map_eq_cons_iff.mp hkeys.symm
      obtain ⟨hvalue, hvalues⟩ := List.forall₂_cons.mp hvalues
      exact .cons ⟨hkey.symm, hvalue⟩ (ih hkeys.symm hvalues)

theorem readText_similar (h : Similar t u) (expected : String) :
    (readText expected t).toOption = (readText expected u).toOption := by
  cases h with
  | leaf value => cases value <;> rfl
  | array hitems => rfl
  | table horder hkeys hvalues => rfl

theorem readList_congr {read : Tree → Fitting α} {R : Tree → Tree → Prop} {items items' : List Tree}
    (hread : ∀ t u, R t u → (read t).toOption = (read u).toOption)
    (h : List.Forall₂ R items items') (span span' : Span) (origin origin' : ArrayOrigin) :
    (readList read (.array span origin items)).toOption =
      (readList read (.array span' origin' items')).toOption := by
  rw [readList, readList, toOption_mapM, toOption_mapM]
  induction h with
  | nil => rfl
  | cons htu _ ih => rw [List.mapM_cons, List.mapM_cons, hread _ _ htu, ih]

/-- Arrays with related items, or similar trees. -/
inductive Listwise (R : Tree → Tree → Prop) : Tree → Tree → Prop
  | array {span span' : Span} {origin origin' : ArrayOrigin} {items items' : List Tree}
      (hitems : List.Forall₂ R items items') :
      Listwise R (.array span origin items) (.array span' origin' items')
  | similar {t u : Tree} (h : Similar t u) : Listwise R t u

theorem readList_similar {read : Tree → Fitting α}
    (hread : ∀ t u, Similar t u → (read t).toOption = (read u).toOption) (h : Similar t u) :
    (readList read t).toOption = (readList read u).toOption := by
  cases h with
  | leaf value => rfl
  | array hitems => exact readList_congr hread hitems _ _ _ _
  | table horder hkeys hvalues => rfl

theorem readList_listwise {read : Tree → Fitting α} {R : Tree → Tree → Prop}
    (hsimilar : ∀ t u, Similar t u → (read t).toOption = (read u).toOption)
    (hread : ∀ t u, R t u → (read t).toOption = (read u).toOption) (h : Listwise R t u) :
    (readList read t).toOption = (readList read u).toOption := by
  cases h with
  | array hitems => exact readList_congr hread hitems _ _ _ _
  | similar h => exact readList_similar hsimilar h

theorem checkContent_similar (h : Similar t u) :
    (checkContent t).toOption = (checkContent u).toOption := by
  cases h with
  | leaf value => rfl
  | array hitems => cases hitems <;> rfl
  | @table _ _ _ _ entries ordered entries' horder hkeys hvalues =>
      have hlength : entries.length = entries'.length := by
        rw [horder.length_eq, ← List.length_map, hkeys, List.length_map]
      cases entries with
      | nil =>
          cases List.length_eq_zero_iff.mp hlength.symm
          rfl
      | cons entry entries =>
          obtain ⟨entry', others', rfl⟩ := List.exists_cons_of_length_eq_add_one hlength.symm
          rfl

theorem variant_toOption (name : String) (span : Span) (variants : List (String × α)) :
    (variant name span variants).toOption = variants.lookup name := by
  rw [variant]
  cases variants.lookup name <;> rfl

theorem readChoice_table (variants : List (String × α)) (span : Span) (origin : TableOrigin) (key : Key)
    (content : Tree) : (readChoice variants (.table span origin [(key, content)])).toOption =
      (variants.lookup key.text).bind fun a => (checkContent content).toOption.map fun _ => a := by
  rw [readChoice, toOption_bind, variant_toOption]
  refine congrArg (Option.bind _) (funext fun a => ?_)
  rw [toOption_bind]
  cases (checkContent content).toOption <;> rfl

theorem readChoice_similar (h : Similar t u) (variants : List (String × α)) :
    (readChoice variants t).toOption = (readChoice variants u).toOption := by
  cases h with
  | leaf value =>
      cases value with
      | text s => rw [readChoice, readChoice, variant_toOption, variant_toOption]
      | _ => rfl
  | array hitems => rfl
  | @table _ _ _ _ entries ordered entries' horder hkeys hvalues =>
      have hlength : entries.length = entries'.length := by
        rw [horder.length_eq, ← List.length_map, hkeys, List.length_map]
      match entries, hlength with
      | [], hlength =>
          cases List.length_eq_zero_iff.mp hlength.symm
          rfl
      | [(key, content)], hlength =>
          obtain ⟨⟨key', content'⟩, rfl⟩ := List.length_eq_one_iff.mp hlength.symm
          cases List.perm_singleton.mp horder.symm
          have hkey : key.text = key'.text := (List.cons.inj hkeys).1
          have hcontent : Similar content content' := (List.forall₂_cons.mp hvalues).1
          rw [readChoice_table, readChoice_table, hkey, checkContent_similar hcontent]
      | _ :: _ :: _, hlength =>
          obtain ⟨_, _, rfl⟩ := List.exists_cons_of_length_eq_add_one hlength.symm
          obtain ⟨_, _, rfl⟩ := List.exists_cons_of_length_eq_add_one (Nat.succ.inj hlength.symm)
          rfl

/-! ## Shapes -/

inductive IsText : Tree → Prop
  | leaf (span : Span) (s : String) : IsText (.leaf span (.text s))

/-- A table or an array with nothing in it. -/
inductive IsBare : Tree → Prop
  | array (span : Span) (origin : ArrayOrigin) : IsBare (.array span origin [])
  | table (span : Span) (origin : TableOrigin) : IsBare (.table span origin [])

/-- One of the names, by itself or as a key beside which nothing stands. -/
inductive IsChoice (names : List String) : Tree → Prop
  | text {span : Span} {s : String} (h : s ∈ names) : IsChoice names (.leaf span (.text s))
  | table {span : Span} {origin : TableOrigin} {key : Key} {content : Tree} (h : key.text ∈ names)
      (hcontent : IsBare content) : IsChoice names (.table span origin [(key, content)])

inductive IsListOf (fits : Tree → Prop) : Tree → Prop
  | array {span : Span} {origin : ArrayOrigin} {items : List Tree} (h : ∀ t ∈ items, fits t) :
      IsListOf fits (.array span origin items)

theorem isSome_readText (expected : String) :
    (readText expected t).toOption.isSome = true ↔ IsText t := by
  constructor
  · intro h
    match t, h with
    | .leaf span (.text s), _ => exact .leaf span s
  · rintro ⟨span, s⟩
    rfl

theorem isSome_checkContent : (checkContent t).toOption.isSome = true ↔ IsBare t := by
  constructor
  · intro h
    match t, h with
    | .array span origin [], _ => exact .array span origin
    | .table span origin [], _ => exact .table span origin
  · rintro (_ | _) <;> rfl

theorem isSome_lookup {variants : List (String × α)} {name : String} :
    (variants.lookup name).isSome = true ↔ name ∈ variants.map (·.1) := by
  rw [List.lookup_isSome_iff, List.mem_map]
  exact exists_congr fun v => and_congr_right fun _ => beq_iff_eq.trans eq_comm

theorem isSome_readChoice {variants : List (String × α)} :
    (readChoice variants t).toOption.isSome = true ↔ IsChoice (variants.map (·.1)) t := by
  have htable : ∀ (key : Key) (content : Tree),
      ((variants.lookup key.text).bind fun a =>
        (checkContent content).toOption.map fun _ => a).isSome = true ↔
      key.text ∈ variants.map (·.1) ∧ IsBare content := by
    intro key content
    rw [← isSome_lookup, ← isSome_checkContent, ← Bool.and_eq_true]
    cases variants.lookup key.text <;> cases (checkContent content).toOption <;> rfl
  constructor
  · intro h
    match t, h with
    | .leaf span (.text s), h =>
        rw [readChoice, variant_toOption] at h
        exact .text (isSome_lookup.mp h)
    | .table span origin [(key, content)], h =>
        rw [readChoice_table] at h
        obtain ⟨hname, hcontent⟩ := (htable key content).mp h
        exact .table hname hcontent
  · rintro (hname | ⟨hname, hcontent⟩)
    · rw [readChoice, variant_toOption]
      exact isSome_lookup.mpr hname
    · rw [readChoice_table]
      exact (htable _ _).mpr ⟨hname, hcontent⟩

theorem isSome_readList {read : Tree → Fitting α} {fits : Tree → Prop}
    (hread : ∀ t, (read t).toOption.isSome = true ↔ fits t) :
    (readList read t).toOption.isSome = true ↔ IsListOf fits t := by
  constructor
  · intro h
    match t, h with
    | .array span origin items, h =>
        rw [readList, toOption_mapM, isSome_mapM] at h
        exact .array fun t ht => (hread t).mp (h t ht)
  · rintro ⟨h⟩
    rw [readList, toOption_mapM, isSome_mapM]
    exact fun t ht => (hread t).mpr (h t ht)

/-! ## Readers -/

/-- The reader succeeds for the trees of a shape, and does not tell similar ones apart. -/
structure Reads (read : Tree → Fitting α) (fits : Tree → Prop) : Prop where
  isSome_iff : ∀ t, (read t).toOption.isSome = true ↔ fits t
  similar : ∀ t u, Similar t u → (read t).toOption = (read u).toOption

theorem reads_readString : Reads readString IsText where
  isSome_iff _ := isSome_readText _
  similar _ _ h := readText_similar h _

theorem reads_readChoice (variants : List (String × α)) :
    Reads (readChoice variants) (IsChoice (variants.map (·.1))) where
  isSome_iff _ := isSome_readChoice
  similar _ _ h := readChoice_similar h variants

theorem reads_readList {read : Tree → Fitting α} {fits : Tree → Prop} (h : Reads read fits) :
    Reads (readList read) (IsListOf fits) where
  isSome_iff _ := isSome_readList h.isSome_iff
  similar _ _ htu := readList_similar h.similar htu

end AttributeTables.Toml
