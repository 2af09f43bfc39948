import AttributeTables.Proofs.Manifest.Entries

/-!
# The first fault of a manifest

The entries of a manifest are taken one after the other: all attributes, then all rules about
comparison, then all rules about merging. Either none is faulty and all of them are in the registry, or
the fault of the first faulty one is told.
-/

namespace AttributeTables

variable {e : AttributeEntry} {es earlier : List AttributeEntry} {ds : List Definition}
  {r r' : Registry} {m : Manifest} {f : Manifest.Fault}

/-! ## Sound entries -/

/-- The attributes have no fault, neither by themselves nor together. -/
structure SoundEntries (es : List AttributeEntry) : Prop where
  properties : ∀ e ∈ es, ∀ name ∈ e.properties, Property.IsName name
  identifiers : ∀ e ∈ es, Text.IsIdentifier e.name
  arguments : ∀ e ∈ es, IsArgument e.display
  distinct : (es.map (·.name)).Nodup

structure Manifest.IsSound (m : Manifest) : Prop where
  attributes : SoundEntries m.attributes
  compatRules : ∀ rule ∈ m.compatRules, rule.function ≠ ""
  mergeRules : ∀ rule ∈ m.mergeRules, rule.function ≠ ""

/-! ## Faulty entries -/

/-- The fault to be told of an attribute that comes after the earlier ones. Of several faults it has
the first. -/
inductive AttributeEntry.HasFault (earlier : List AttributeEntry) (e : AttributeEntry) :
    Manifest.Fault → Prop
  | unknownProperty {unknown : String} (h : e.FirstUnknown unknown) :
      HasFault earlier e (.unknownProperty e.name unknown)
  | invalidName (hproperties : ∀ name ∈ e.properties, Property.IsName name)
      (h : ¬ Text.IsIdentifier e.name) :
      HasFault earlier e (.refusal (.invalidName e.name))
  | invalidDisplay (hproperties : ∀ name ∈ e.properties, Property.IsName name)
      (hname : Text.IsIdentifier e.name) (h : ¬ IsArgument e.display) :
      HasFault earlier e (.refusal (.invalidDisplay e.name e.display))
  | duplicateName (hproperties : ∀ name ∈ e.properties, Property.IsName name)
      (hname : Text.IsIdentifier e.name) (hdisplay : IsArgument e.display)
      (h : ∃ e' ∈ earlier, e'.name = e.name) :
      HasFault earlier e (.refusal (.duplicateName e.name))

/-- The fault of the first faulty entry. That of a rule does not tell which rule it is. -/
inductive Manifest.FirstFault (m : Manifest) : Manifest.Fault → Prop
  | ofAttribute {before after : List AttributeEntry} {e : AttributeEntry} {f : Manifest.Fault}
      (hsplit : m.attributes = before ++ e :: after) (hbefore : SoundEntries before)
      (h : e.HasFault before f) : FirstFault m f
  | ofCompatRule (hattributes : SoundEntries m.attributes)
      (h : ∃ rule ∈ m.compatRules, rule.function = "") :
      FirstFault m (.refusal (.emptyFunction .compat))
  | ofMergeRule (hattributes : SoundEntries m.attributes)
      (hcompat : ∀ rule ∈ m.compatRules, rule.function ≠ "")
      (h : ∃ rule ∈ m.mergeRules, rule.function = "") :
      FirstFault m (.refusal (.emptyFunction .merge))

/-! ## Attributes -/

theorem Call.filterMap_definition?_insert (ds : List Definition) :
    (ds.map Call.insert).filterMap Call.definition? = ds := by
  simp [Function.comp_def, Call.definition?]

namespace AttributeEntry

theorem map_name_of_denotes (h : List.Forall₂ Denotes es ds) : ds.map (·.name) = es.map (·.name) := by
  induction h with
  | nil => rfl
  | cons hd _ ih => rw [List.map_cons, List.map_cons, hd.name, ih]

theorem forall_isSound_iff_of_denotes (h : List.Forall₂ Denotes es ds) :
    (∀ call ∈ ds.map Call.insert, call.IsSound) ↔
      ∀ e ∈ es, Text.IsIdentifier e.name ∧ IsArgument e.display := by
  induction h with
  | nil => simp
  | cons hd _ ih =>
      rw [List.map_cons, List.forall_mem_cons, List.forall_mem_cons, ih, Call.IsSound, hd.name,
        hd.display]

theorem exists_forall₂_denotes_iff : (∃ ds, List.Forall₂ Denotes es ds) ↔
    ∀ e ∈ es, ∀ name ∈ e.properties, Property.IsName name := by
  induction es with
  | nil => simp
  | cons e es ih =>
      rw [List.forall_mem_cons, ← exists_denotes_iff, ← ih]
      constructor
      · rintro ⟨ds, h⟩
        obtain ⟨d, ds, hd, hds, rfl⟩ := List.forall₂_cons_left_iff.mp h
        exact ⟨⟨d, hd⟩, ds, hds⟩
      · rintro ⟨⟨d, hd⟩, ds, hds⟩
        exact ⟨d :: ds, .cons hd hds⟩

theorem foldlM_enter_eq_ok_iff : es.foldlM enter r = .ok r' ↔
    ∃ ds, List.Forall₂ Denotes es ds ∧ r.acceptAll (ds.map .insert) = .ok r' := by
  induction es generalizing r with
  | nil =>
      simp only [List.forall₂_nil_left_iff, exists_eq_left, List.map_nil, Registry.acceptAll,
        List.foldlM_nil, pure, Except.pure, Except.ok.injEq]
  | cons e es ih =>
      simp only [List.foldlM_cons, bind_eq_ok_iff, enter_eq_ok_iff, ih]
      constructor
      · rintro ⟨r₁, ⟨d, hd, hr₁⟩, ds, hds, hr'⟩
        exact ⟨d :: ds, .cons hd hds, bind_eq_ok_iff.mpr ⟨r₁, hr₁, hr'⟩⟩
      · rintro ⟨ds, h, hr'⟩
        obtain ⟨d, ds, hd, hds, rfl⟩ := List.forall₂_cons_left_iff.mp h
        obtain ⟨r₁, hr₁, hr'⟩ := bind_eq_ok_iff.mp hr'
        exact ⟨r₁, ⟨d, hd, hr₁⟩, ds, hds, hr'⟩

/-- The attributes go through if and only if they have no fault, and then all of them are listed. -/
theorem foldlM_enter_empty_eq_ok_iff : es.foldlM enter {} = .ok r ↔ SoundEntries es ∧
    ∃ ds, List.Forall₂ Denotes es ds ∧ r = (ds.map .insert).foldl Registry.extend {} := by
  simp only [foldlM_enter_eq_ok_iff, Registry.WellFormed.empty.acceptAll_eq_ok_iff,
    Call.filterMap_definition?_insert]
  constructor
  · rintro ⟨ds, hds, hsound, hnodup, hr⟩
    have hparts := (forall_isSound_iff_of_denotes hds).mp hsound
    refine ⟨⟨exists_forall₂_denotes_iff.mp ⟨ds, hds⟩, fun e he => (hparts e he).1,
      fun e he => (hparts e he).2, ?_⟩, ds, hds, hr⟩
    rw [← map_name_of_denotes hds]
    exact hnodup
  · rintro ⟨hes, ds, hds, hr⟩
    refine ⟨ds, hds, (forall_isSound_iff_of_denotes hds).mpr fun e he =>
      ⟨hes.identifiers e he, hes.arguments e he⟩, ?_, hr⟩
    change (ds.map (·.name)).Nodup
    rw [map_name_of_denotes hds]
    exact hes.distinct

theorem exists_stored_name_iff (h : es.foldlM enter {} = .ok r) (name : String) :
    (∃ d ∈ r.stored, d.name = name) ↔ ∃ e ∈ es, e.name = name := by
  obtain ⟨-, ds, hds, rfl⟩ := foldlM_enter_empty_eq_ok_iff.mp h
  have hstored : ∀ d, d ∈ ((ds.map .insert).foldl Registry.extend {}).stored ↔ d ∈ ds := by
    intro d
    simp [Registry.foldl_extend_listed, Call.definition?]
  simp only [hstored]
  rw [← List.mem_map, ← List.mem_map, map_name_of_denotes hds]

theorem wellFormed_of_foldlM_enter (h : es.foldlM enter {} = .ok r) : r.WellFormed := by
  obtain ⟨ds, -, hr⟩ := foldlM_enter_eq_ok_iff.mp h
  exact Registry.WellFormed.empty.acceptAll hr

theorem enter_eq_error_iff (h : earlier.foldlM enter {} = .ok r) :
    e.enter r = .error f ↔ e.HasFault earlier f := by
  have henter : e.enter r = .error f ↔
      (∃ unknown, e.FirstUnknown unknown ∧ f = .unknownProperty e.name unknown) ∨
        ∃ d, e.Denotes d ∧ ∃ refusal, (Call.insert d).answer r.stored = .error refusal ∧
          .refusal refusal = f := by
    simp only [enter, bind_eq_error_iff, definition_eq_error_iff, definition_eq_ok_iff,
      mapError_eq_error_iff, ← (wellFormed_of_foldlM_enter h).result_eq_error_iff]
    rfl
  rw [henter]
  -- The registry is asked only when all names of tags are known.
  constructor
  · rintro (⟨unknown, hunknown, rfl⟩ | ⟨d, hd, refusal, hanswer, rfl⟩)
    · exact .unknownProperty hunknown
    · have hproperties := exists_denotes_iff.mp ⟨d, hd⟩
      simp only [Call.answer, hd.name, hd.display, exists_stored_name_iff h] at hanswer
      split_ifs at hanswer with hname hdisplay hused <;> cases hanswer
      · exact .duplicateName hproperties hname hdisplay hused
      · exact .invalidDisplay hproperties hname hdisplay
      · exact .invalidName hproperties hname
  · intro hfault
    cases hfault with
    | unknownProperty hunknown => exact .inl ⟨_, hunknown, rfl⟩
    | invalidName hproperties hname =>
        obtain ⟨d, hd⟩ := exists_denotes_iff.mpr hproperties
        exact .inr ⟨d, hd, _, by simp [Call.answer, hd.name, hname], rfl⟩
    | invalidDisplay hproperties hname hdisplay =>
        obtain ⟨d, hd⟩ := exists_denotes_iff.mpr hproperties
        exact .inr ⟨d, hd, _, by simp [Call.answer, hd.name, hd.display, hname, hdisplay], rfl⟩
    | duplicateName hproperties hname hdisplay hused =>
        obtain ⟨d, hd⟩ := exists_denotes_iff.mpr hproperties
        refine .inr ⟨d, hd, .duplicateName e.name, ?_, rfl⟩
        simp only [Call.answer, hd.name, hd.display, exists_stored_name_iff h]
        rw [if_neg (not_not.mpr hname), if_neg (not_not.mpr hdisplay), if_pos hused]

theorem foldlM_enter_eq_error_iff : es.foldlM enter {} = .error f ↔
    ∃ before e after, es = before ++ e :: after ∧ SoundEntries before ∧ e.HasFault before f := by
  rw [foldlM_eq_error_iff]
  constructor
  · rintro ⟨before, e, after, r, hsplit, hbefore, he⟩
    exact ⟨before, e, after, hsplit, (foldlM_enter_empty_eq_ok_iff.mp hbefore).1,
      (enter_eq_error_iff hbefore).mp he⟩
  · rintro ⟨before, e, after, hsplit, hsound, he⟩
    obtain ⟨ds, hds⟩ := exists_forall₂_denotes_iff.mpr hsound.properties
    have hbefore := foldlM_enter_empty_eq_ok_iff.mpr ⟨hsound, ds, hds, rfl⟩
    exact ⟨before, e, after, _, hsplit, hbefore, (enter_eq_error_iff hbefore).mpr he⟩

end AttributeEntry

/-! ## Rules -/

/-- Rules of one kind can be refused for one reason only, and whatever the registry holds. -/
theorem Registry.WellFormed.acceptAll_rules {α : Type} (call : α → Call) {function : α → String}
    {kind : RuleKind} (hanswer : ∀ rule stored, (call rule).answer stored =
      if function rule = "" then .error (.emptyFunction kind) else .ok ())
    (h : r.WellFormed) (rules : List α) :
    r.acceptAll (rules.map call) =
      if ∃ rule ∈ rules, function rule = "" then .error (.emptyFunction kind)
      else .ok ((rules.map call).foldl Registry.extend r) := by
  induction rules generalizing r with
  | nil => rfl
  | cons rule rules ih =>
      rw [List.map_cons, h.acceptAll_cons, hanswer]
      by_cases hrule : function rule = ""
      · rw [if_pos hrule, if_pos ⟨rule, List.mem_cons_self, hrule⟩]
        rfl
      · have hok : (call rule).answer r.stored = .ok () := by rw [hanswer, if_neg hrule]
        rw [if_neg hrule]
        refine (ih (h.extend hok)).trans ?_
        simp only [List.exists_mem_cons_iff, hrule, false_or, List.foldl_cons]

namespace Manifest

theorem foldlM_rules_eq {α : Type} (call : α → Call) (rules : List α) (r : Registry) :
    rules.foldlM (fun r rule => ((call rule).step.result r).mapError Fault.refusal) r =
      (r.acceptAll (rules.map call)).mapError .refusal := by
  rw [Registry.acceptAll, List.foldlM_map]
  exact foldlM_mapError Fault.refusal _ rules r

/-- The rules are looked at only if no attribute is faulty. -/
theorem registry_eq (m : Manifest) : m.registry = (do
    let r ← m.attributes.foldlM AttributeEntry.enter {}
    if ∃ rule ∈ m.compatRules, rule.function = "" then .error (.refusal (.emptyFunction .compat))
    else if ∃ rule ∈ m.mergeRules, rule.function = "" then .error (.refusal (.emptyFunction .merge))
    else .ok ((m.compatRules.map Call.compatRule ++ m.mergeRules.map Call.mergeRule).foldl
      Registry.extend r)) := by
  rw [registry]
  cases hattributes : m.attributes.foldlM AttributeEntry.enter {} with
  | error f => rfl
  | ok r =>
      have h := AttributeEntry.wellFormed_of_foldlM_enter hattributes
      have hcompat := h.acceptAll_rules .compatRule (fun _ _ => rfl) m.compatRules
      change ((m.compatRules.foldlM (fun r rule =>
          ((Call.compatRule rule).step.result r).mapError Fault.refusal) r) >>= fun r =>
        m.mergeRules.foldlM (fun r rule =>
          ((Call.mergeRule rule).step.result r).mapError Fault.refusal) r) = _
      simp only [foldlM_rules_eq]
      by_cases hempty : ∃ rule ∈ m.compatRules, rule.function = ""
      · rw [if_pos hempty] at hcompat
        rw [hcompat]
        exact (if_pos hempty).symm
      · rw [if_neg hempty] at hcompat
        have hmerge := (h.acceptAll hcompat).acceptAll_rules .mergeRule (fun _ _ => rfl) m.mergeRules
        rw [hcompat]
        refine Eq.trans ?_ (if_neg hempty).symm
        change (Registry.acceptAll _ _).mapError _ = _
        rw [hmerge, List.foldl_append, apply_ite (Except.mapError Fault.refusal)]
        rfl

/-- What a manifest with the given attributes asks for, in order. -/
def calls (m : Manifest) (ds : List Definition) : List Call :=
  ds.map .insert ++ m.compatRules.map .compatRule ++ m.mergeRules.map .mergeRule

theorem filterMap_definition?_calls : (m.calls ds).filterMap Call.definition? = ds := by
  rw [calls, List.append_assoc, List.filterMap_append, Call.filterMap_definition?_insert]
  simp [Function.comp_def, Call.definition?]

theorem filterMap_compatRule?_calls : (m.calls ds).filterMap Call.compatRule? = m.compatRules := by
  simp [calls, Function.comp_def, Call.compatRule?]

theorem filterMap_mergeRule?_calls : (m.calls ds).filterMap Call.mergeRule? = m.mergeRules := by
  simp [calls, Function.comp_def, Call.mergeRule?]

theorem registry_eq_ok_iff : m.registry = .ok r ↔ m.IsSound ∧
    ∃ ds, List.Forall₂ AttributeEntry.Denotes m.attributes ds ∧
      r = (m.calls ds).foldl Registry.extend {} := by
  simp only [registry_eq, bind_eq_ok_iff, AttributeEntry.foldlM_enter_empty_eq_ok_iff]
  constructor
  · rintro ⟨r₁, ⟨hattributes, ds, hds, rfl⟩, h⟩
    split_ifs at h with hcompat hmerge
    simp only [not_exists, not_and] at hcompat hmerge
    refine ⟨⟨hattributes, hcompat, hmerge⟩, ds, hds, ?_⟩
    rw [calls, List.append_assoc, List.foldl_append]
    exact (Except.ok.inj h).symm
  · rintro ⟨⟨hattributes, hcompat, hmerge⟩, ds, hds, rfl⟩
    refine ⟨_, ⟨hattributes, ds, hds, rfl⟩, ?_⟩
    rw [if_neg (by simpa using hcompat), if_neg (by simpa using hmerge)]
    simp only [calls, List.foldl_append]

theorem registry_eq_error_iff : m.registry = .error f ↔ m.FirstFault f := by
  rw [registry_eq, bind_eq_error_iff, AttributeEntry.foldlM_enter_eq_error_iff]
  constructor
  · rintro (⟨before, e, after, hsplit, hbefore, he⟩ | ⟨r, hr, h⟩)
    · exact .ofAttribute hsplit hbefore he
    · obtain ⟨hattributes, -⟩ := AttributeEntry.foldlM_enter_empty_eq_ok_iff.mp hr
      split_ifs at h with hcompat hmerge
      · cases h
        exact .ofCompatRule hattributes hcompat
      · cases h
        exact .ofMergeRule hattributes (by simpa using hcompat) hmerge
  · have hattributes : SoundEntries m.attributes →
        ∃ r, m.attributes.foldlM AttributeEntry.enter {} = .ok r := by
      intro hsound
      obtain ⟨ds, hds⟩ := AttributeEntry.exists_forall₂_denotes_iff.mpr hsound.properties
      exact ⟨_, AttributeEntry.foldlM_enter_empty_eq_ok_iff.mpr ⟨hsound, ds, hds, rfl⟩⟩
    intro hfault
    cases hfault with
    | ofAttribute hsplit hbefore he => exact .inl ⟨_, _, _, hsplit, hbefore, he⟩
    | ofCompatRule hsound hcompat =>
        obtain ⟨r, hr⟩ := hattributes hsound
        exact .inr ⟨r, hr, if_pos hcompat⟩
    | ofMergeRule hsound hcompat hmerge =>
        obtain ⟨r, hr⟩ := hattributes hsound
        exact .inr ⟨r, hr, (if_neg (by simpa using hcompat)).trans (if_pos hmerge)⟩

/-- All of a manifest enters the registry if it is sound, in the order of the manifest. Otherwise the
fault of the first faulty entry is told. -/
theorem registry_holds_all_or_first_fault (m : Manifest) :
    ((∃ r, m.registry = .ok r) ↔ m.IsSound) ∧
    (∀ r, m.registry = .ok r →
      (∀ c, List.Forall₂ AttributeEntry.Denotes (m.attributes.filter (·.category = c)) (r.listed c)) ∧
      r.compatRules = m.compatRules.map CompatRule.normal ∧ r.mergeRules = m.mergeRules) ∧
    (∀ f, m.registry = .error f ↔ m.FirstFault f) ∧
    ∀ file source, schema.readSource source = .ok m →
      load file source = m.registry.mapError .fault := by
  refine ⟨⟨?_, fun h => ?_⟩, fun r hr => ?_, fun f => registry_eq_error_iff, fun file source h => ?_⟩
  · rintro ⟨r, hr⟩
    exact (registry_eq_ok_iff.mp hr).1
  · obtain ⟨ds, hds⟩ := AttributeEntry.exists_forall₂_denotes_iff.mpr h.attributes.properties
    exact ⟨_, registry_eq_ok_iff.mpr ⟨h, ds, hds, rfl⟩⟩
  · obtain ⟨-, ds, hds, rfl⟩ := registry_eq_ok_iff.mp hr
    refine ⟨fun c => ?_, ?_, ?_⟩
    · rw [Registry.foldl_extend_listed, filterMap_definition?_calls]
      exact List.rel_filter (fun e d hd => by simp [hd.category]) hds
    · rw [Registry.foldl_extend_compatRules, filterMap_compatRule?_calls]
      rfl
    · rw [Registry.foldl_extend_mergeRules, filterMap_mergeRule?_calls]
      rfl
  · rw [load, h]
    rfl

-- The second attribute has three faults, and the rule one.
example : registry ⟨[⟨"A", .int, "a", ["FnAttr", "RetAttr"]⟩, ⟨"A", .enum, "", ["FnAttr", "fn"]⟩],
    [⟨"", none⟩], []⟩ = .error (.unknownProperty "A" "fn") := rfl

end Manifest

end AttributeTables
