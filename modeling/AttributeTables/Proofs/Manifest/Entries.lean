import AttributeTables.Manifest
import AttributeTables.Proofs.Registry.Acceptance

/-!
# Attributes of a manifest

An attribute of a manifest gives its tags by name. It enters a registry if every name is that of a tag
and the registry accepts the attribute; otherwise the first of several faults is told.
-/

namespace AttributeTables

variable {e : AttributeEntry} {d : Definition} {r r' : Registry} {f : Manifest.Fault}

/-! ## Names of tags -/

/-- A tag has the name. -/
def Property.IsName (name : String) : Prop := ∃ p : Property, p.name = name

/-- The set holds the tag of the name and nothing else. -/
def PropertySet.IsNamed (name : String) (tag : PropertySet) : Prop :=
  ∃ p : Property, p.name = name ∧ tag = .single p

theorem Property.ofName?_eq_some_iff {name : String} {p : Property} :
    ofName? name = some p ↔ p.name = name := by
  constructor
  · intro h
    simpa using List.find?_some h
  · rintro rfl
    exact ofName?_name p

theorem PropertySet.ofName?_eq_some_iff {name : String} {tag : PropertySet} :
    ofName? name = some tag ↔ IsNamed name tag := by
  simp only [ofName?, Option.map_eq_some_iff, Property.ofName?_eq_some_iff, IsNamed,
    eq_comm (a := tag)]

theorem PropertySet.ofName?_eq_none_iff {name : String} :
    ofName? name = none ↔ ¬ Property.IsName name := by
  rw [ofName?, Option.map_eq_none_iff, Option.eq_none_iff_forall_ne_some]
  simp [Property.ofName?_eq_some_iff, Property.IsName]

/-! ## Definitions -/

namespace AttributeEntry

/-- The entry is that of the attribute: the names of its tags stand for its tags, one by one. -/
structure Denotes (e : AttributeEntry) (d : Definition) : Prop where
  name : d.name = e.name
  category : d.category = e.category
  display : d.display = e.display
  tags : List.Forall₂ PropertySet.IsNamed e.properties d.properties

/-- The first name that is not one of a tag. -/
structure FirstUnknown (e : AttributeEntry) (unknown : String) : Prop where
  split : ∃ before after, e.properties = before ++ unknown :: after ∧
    ∀ name ∈ before, Property.IsName name
  isNot : ¬ Property.IsName unknown

theorem tags_eq_ok_iff {tags : List PropertySet} :
    e.tags = .ok tags ↔ List.Forall₂ PropertySet.IsNamed e.properties tags := by
  have hstep : (fun name tag => PropertySet.ofName? name = some tag) = PropertySet.IsNamed := by
    funext name tag
    exact propext PropertySet.ofName?_eq_some_iff
  rw [AttributeEntry.tags, mapM_eq_ok_iff, ← hstep]
  refine iff_of_eq (congrArg (List.Forall₂ · e.properties tags) ?_)
  funext name tag
  cases PropertySet.ofName? name <;> simp

theorem tags_eq_error_iff :
    e.tags = .error f ↔ ∃ unknown, e.FirstUnknown unknown ∧ f = .unknownProperty e.name unknown := by
  rw [AttributeEntry.tags, mapM_eq_error_iff]
  constructor
  · rintro ⟨before, unknown, after, hsplit, hbefore, hunknown⟩
    cases hname : PropertySet.ofName? unknown with
    | some tag => simp [hname] at hunknown
    | none =>
        rw [hname] at hunknown
        refine ⟨unknown, ⟨⟨before, after, hsplit, fun name hmem => ?_⟩,
          PropertySet.ofName?_eq_none_iff.mp hname⟩, (Except.error.inj hunknown).symm⟩
        obtain ⟨tag, htag⟩ := hbefore name hmem
        by_contra hnot
        rw [PropertySet.ofName?_eq_none_iff.mpr hnot] at htag
        cases htag
  · rintro ⟨unknown, ⟨⟨before, after, hsplit, hbefore⟩, hunknown⟩, rfl⟩
    refine ⟨before, unknown, after, hsplit, fun name hmem => ?_, ?_⟩
    · obtain ⟨p, hp⟩ := hbefore name hmem
      exact ⟨.single p, by rw [PropertySet.ofName?_eq_some_iff.mpr ⟨p, hp, rfl⟩]⟩
    · rw [PropertySet.ofName?_eq_none_iff.mpr hunknown]

theorem definition_eq_ok_iff : e.definition = .ok d ↔ e.Denotes d := by
  rw [AttributeEntry.definition, bind_eq_ok_iff]
  constructor
  · rintro ⟨tags, htags, h⟩
    cases h
    exact ⟨rfl, rfl, rfl, tags_eq_ok_iff.mp htags⟩
  · rintro ⟨hname, hcategory, hdisplay, htags⟩
    refine ⟨d.properties, tags_eq_ok_iff.mpr htags, ?_⟩
    rw [← hname, ← hcategory, ← hdisplay]
    rfl

theorem definition_eq_error_iff : e.definition = .error f ↔
    ∃ unknown, e.FirstUnknown unknown ∧ f = .unknownProperty e.name unknown := by
  rw [AttributeEntry.definition, bind_eq_error_iff, tags_eq_error_iff]
  exact or_iff_left nofun

theorem exists_denotes_iff : (∃ d, e.Denotes d) ↔ ∀ name ∈ e.properties, Property.IsName name := by
  simp only [← definition_eq_ok_iff]
  cases h : e.definition with
  | ok d =>
      have htags : List.Forall₂ (fun name tag => Property.IsName name ∧ PropertySet.IsNamed name tag)
          e.properties d.properties := by
        refine (definition_eq_ok_iff.mp h).tags.imp fun name tag hnamed => ⟨?_, hnamed⟩
        obtain ⟨p, hp, -⟩ := hnamed
        exact ⟨p, hp⟩
      exact iff_of_true ⟨d, rfl⟩ ((List.forall₂_and_left _ _).mp htags).1
  | error f =>
      obtain ⟨unknown, ⟨⟨before, after, hsplit, -⟩, hunknown⟩, -⟩ := definition_eq_error_iff.mp h
      refine iff_of_false (by simp) fun hall => hunknown (hall unknown ?_)
      rw [hsplit]
      simp

/-! ## Entry -/

theorem enter_eq_ok_iff :
    e.enter r = .ok r' ↔ ∃ d, e.Denotes d ∧ (Call.insert d).step.result r = .ok r' := by
  simp only [AttributeEntry.enter, bind_eq_ok_iff, definition_eq_ok_iff, mapError_eq_ok_iff]
  rfl

end AttributeEntry

end AttributeTables
