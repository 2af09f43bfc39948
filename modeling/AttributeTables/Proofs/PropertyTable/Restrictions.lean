import AttributeTables.Proofs.PropertyTable.Entries
import AttributeTables.Proofs.PropertyTable.Tags

/-!
# Restricted tags

Two tags are reserved for the attributes of one category each. A build looks for them item by item in
every declared set, but whether there is a table is a matter of the folded bytes only. Without a
table, the first attribute with a misplaced tag is told, and of it the lowest such bit of the first
set that has one.
-/

namespace AttributeTables

variable {k : Catalogue} {d : Definition} {tag : PropertySet} {p q : Property} {c c' : Category}
  {conflict : Conflict}

/-! ## Reservations -/

/-- Attributes of other categories must not carry the tag. -/
inductive Property.ReservedFor : Property → Category → Prop where
  | intersectAnd : ReservedFor .intersectAnd .enum
  | intersectMin : ReservedFor .intersectMin .int

/-- The tag must not be on an attribute of the category. -/
def Property.BannedFrom (p : Property) (c : Category) : Prop :=
  ∃ required, p.ReservedFor required ∧ required ≠ c

/-- All tags of the attribute together keep to the reservations. -/
def Definition.KeepsReservations (d : Definition) : Prop :=
  (d.mask.has .intersectAnd = true → d.category = .enum) ∧
    (d.mask.has .intersectMin = true → d.category = .int)

theorem Property.requiredCategory?_eq_some_iff : p.requiredCategory? = some c ↔ p.ReservedFor c := by
  constructor
  · intro h
    cases p <;> cases h
    · exact .intersectAnd
    · exact .intersectMin
  · rintro (_ | _) <;> rfl

theorem Property.ReservedFor.unique (h : p.ReservedFor c) (h' : p.ReservedFor c') : c = c' := by
  cases h <;> cases h' <;> rfl

theorem Property.bannedFrom_iff :
    p.BannedFrom c ↔ p = .intersectAnd ∧ c ≠ .enum ∨ p = .intersectMin ∧ c ≠ .int := by
  constructor
  · rintro ⟨_, _ | _, hne⟩
    · exact .inl ⟨rfl, hne.symm⟩
    · exact .inr ⟨rfl, hne.symm⟩
  · rintro (⟨rfl, hne⟩ | ⟨rfl, hne⟩)
    · exact ⟨_, .intersectAnd, hne.symm⟩
    · exact ⟨_, .intersectMin, hne.symm⟩

theorem Definition.keepsReservations_iff :
    d.KeepsReservations ↔
      ∀ tag ∈ d.properties, ∀ p, tag.has p = true → ¬ p.BannedFrom d.category := by
  have hmask : d.KeepsReservations ↔ ∀ p, d.mask.has p = true → ¬ p.BannedFrom d.category := by
    simp only [KeepsReservations, Property.bannedFrom_iff]
    constructor
    · rintro ⟨hand, hmin⟩ p hp (⟨rfl, hne⟩ | ⟨rfl, hne⟩)
      · exact hne (hand hp)
      · exact hne (hmin hp)
    · intro h
      exact ⟨fun hp => not_not.mp fun hne => h _ hp (.inl ⟨rfl, hne⟩),
        fun hp => not_not.mp fun hne => h _ hp (.inr ⟨rfl, hne⟩)⟩
  rw [hmask]
  simp only [Definition.has_mask]
  constructor
  · exact fun h tag htag p hp => h p ⟨tag, htag, hp⟩
  · rintro h p ⟨tag, htag, hp⟩
    exact h tag htag p hp

namespace PropertyTable

/-! ## Conflicts of one set -/

theorem conflictOf_single :
    conflictOf d (.single p) = some conflict ↔
      ∃ required, p.ReservedFor required ∧ required ≠ d.category ∧
        conflict = ⟨d.name, .single p, required, d.category⟩ := by
  simp only [conflictOf, PropertySet.requiredCategory?, PropertySet.property?_single,
    Option.bind_some, ← Property.requiredCategory?_eq_some_iff]
  cases p.requiredCategory? with
  | none => simp
  | some required =>
      by_cases h : required = d.category
      · simp [h]
      · simp [h, eq_comm (b := conflict)]

theorem conflictOf_single_eq_none_iff :
    conflictOf d (.single p) = none ↔ ¬ p.BannedFrom d.category := by
  rw [Option.eq_none_iff_forall_ne_some]
  simp only [ne_eq, conflictOf_single, Property.BannedFrom]
  constructor
  · rintro h ⟨required, hreserved, hne⟩
    exact h _ ⟨required, hreserved, hne, rfl⟩
  · rintro h _ ⟨required, hreserved, hne, -⟩
    exact h ⟨required, hreserved, hne⟩

/-- The bit without a meaning is never in conflict. -/
theorem findSome?_items (d : Definition) (tag : PropertySet) :
    tag.items.findSome? (conflictOf d) =
      (Property.all.filter tag.has).findSome? fun p => conflictOf d (.single p) := by
  have hunknown : conflictOf d ⟨PropertySet.unknownBit⟩ = none := rfl
  rw [PropertySet.items, List.findSome?_append, List.findSome?_map]
  split
  · simp [hunknown, Function.comp_def]
  · simp [Function.comp_def]

theorem findSome?_items_eq_none_iff :
    tag.items.findSome? (conflictOf d) = none ↔
      ∀ p, tag.has p = true → ¬ p.BannedFrom d.category := by
  simp [findSome?_items, List.findSome?_eq_none_iff, conflictOf_single_eq_none_iff,
    Property.mem_all]

/-- Of the tags in a set, the lowest one that is not allowed on the attribute. -/
structure LowestBanned (d : Definition) (tag : PropertySet) (p : Property) : Prop where
  has : tag.has p = true
  banned : p.BannedFrom d.category
  lowest : ∀ q, tag.has q = true → q.BannedFrom d.category → p.bit ≤ q.bit

theorem exists_lowestBanned (h : tag.items.findSome? (conflictOf d) = some conflict) :
    ∃ p, LowestBanned d tag p ∧ conflictOf d (.single p) = some conflict := by
  rw [findSome?_items, List.findSome?_eq_some_iff] at h
  obtain ⟨lower, p, higher, hsplit, hconflict, hlower⟩ := h
  have hmem : ∀ q, tag.has q = true ↔ q ∈ lower ++ p :: higher := by
    intro q
    rw [← hsplit, List.mem_filter]
    cases q <;> simp [Property.all]
  have hsorted : (lower ++ p :: higher).Pairwise (·.bit < ·.bit) := by
    rw [← hsplit]
    exact List.Pairwise.filter _ (by decide)
  obtain ⟨required, hreserved, hne, -⟩ := conflictOf_single.mp hconflict
  refine ⟨p, ⟨(hmem p).mpr (by simp), ⟨required, hreserved, hne⟩, fun q hq hbanned => ?_⟩, hconflict⟩
  rcases List.mem_append.mp ((hmem q).mp hq) with hq | hq
  · exact absurd hbanned (conflictOf_single_eq_none_iff.mp (hlower q hq))
  · rcases List.mem_cons.mp hq with rfl | hq
    · exact UInt8.le_refl _
    · exact UInt8.le_of_lt ((List.pairwise_cons.mp (List.pairwise_append.mp hsorted).2.1).1 q hq)

theorem LowestBanned.eq (hp : LowestBanned d tag p) (hq : LowestBanned d tag q) : p = q := by
  have hbit : p.bit = q.bit :=
    UInt8.le_antisymm (hp.lowest q hq.has hq.banned) (hq.lowest p hp.has hp.banned)
  cases p <;> cases q <;> first | rfl | exact absurd hbit (by decide)

theorem findSome?_items_eq_some_iff :
    tag.items.findSome? (conflictOf d) = some conflict ↔
      ∃ p, LowestBanned d tag p ∧ conflictOf d (.single p) = some conflict := by
  refine ⟨exists_lowestBanned, ?_⟩
  rintro ⟨p, hp, hconflict⟩
  cases hfound : tag.items.findSome? (conflictOf d) with
  | none => exact absurd hp.banned (findSome?_items_eq_none_iff.mp hfound p hp.has)
  | some conflict' =>
      obtain ⟨q, hq, hconflict'⟩ := exists_lowestBanned hfound
      rw [hp.eq hq, hconflict'] at hconflict
      exact hconflict

/-! ## Conflicts of an attribute -/

theorem firstConflict?_eq_none_iff : firstConflict? d = none ↔ d.KeepsReservations := by
  rw [firstConflict?, List.findSome?_eq_none_iff, Definition.keepsReservations_iff]
  exact forall₂_congr fun tag _ => findSome?_items_eq_none_iff

/-- The first attribute that does not keep to the reservations, in its declared order the first set
with a banned tag, and of that one the lowest. -/
inductive FirstConflict (k : Catalogue) : Conflict → Prop where
  | intro {earlier later : List Definition} {d : Definition} {before after : List PropertySet}
      {tag : PropertySet} {p : Property} {required : Category}
      (attributes : k.codeBearing = earlier ++ d :: later)
      (kept : ∀ e ∈ earlier, e.KeepsReservations)
      (tags : d.properties = before ++ tag :: after)
      (allowed : ∀ t ∈ before, ∀ q, t.has q = true → ¬ q.BannedFrom d.category)
      (lowest : LowestBanned d tag p)
      (reserved : p.ReservedFor required) :
      FirstConflict k ⟨d.name, .single p, required, d.category⟩

theorem findSome?_firstConflict?_eq_some_iff :
    k.codeBearing.findSome? firstConflict? = some conflict ↔ FirstConflict k conflict := by
  simp only [List.findSome?_eq_some_iff, firstConflict?_eq_none_iff]
  constructor
  · rintro ⟨earlier, d, later, hattributes, hfirst, hkept⟩
    rw [firstConflict?, List.findSome?_eq_some_iff] at hfirst
    obtain ⟨before, tag, after, htags, hfound, hallowed⟩ := hfirst
    simp only [findSome?_items_eq_none_iff] at hallowed
    obtain ⟨p, hlowest, hconflict⟩ := findSome?_items_eq_some_iff.mp hfound
    obtain ⟨required, hreserved, -, rfl⟩ := conflictOf_single.mp hconflict
    exact .intro hattributes hkept htags hallowed hlowest hreserved
  · rintro ⟨hattributes, hkept, htags, hallowed, hlowest, hreserved⟩
    refine ⟨_, _, _, hattributes, ?_, hkept⟩
    rw [firstConflict?, List.findSome?_eq_some_iff]
    refine ⟨_, _, _, htags, findSome?_items_eq_some_iff.mpr ⟨_, hlowest, ?_⟩, ?_⟩
    · obtain ⟨required, hreserved', hne⟩ := hlowest.banned
      cases hreserved.unique hreserved'
      exact conflictOf_single.mpr ⟨_, hreserved, hne, rfl⟩
    · simpa only [findSome?_items_eq_none_iff] using hallowed

/-! ## Builds -/

/-- There is a table if and only if the folded byte of every attribute keeps to the reservations, and
then it is known; otherwise the first conflict is told. -/
theorem build_keeps_reservations (k : Catalogue) :
    (∀ t, build k = .ok t ↔ (∀ d ∈ k.codeBearing, d.KeepsReservations) ∧
      t.entries = k.codeBearing.map fun d => ⟨d.name, d.category, d.properties, d.mask⟩) ∧
    ∀ conflict, build k = .error conflict ↔ FirstConflict k conflict := by
  have hnone : k.codeBearing.findSome? firstConflict? = none ↔
      ∀ d ∈ k.codeBearing, d.KeepsReservations := by
    simp only [List.findSome?_eq_none_iff, firstConflict?_eq_none_iff]
  rw [build_eq]
  refine ⟨fun t => ?_, fun conflict => ?_⟩
  · rw [← hnone]
    cases k.codeBearing.findSome? firstConflict? with
    | some conflict => simp
    | none =>
        constructor
        · rintro ⟨⟩
          exact ⟨rfl, rfl⟩
        · rintro ⟨-, hentries⟩
          cases t
          cases hentries
          rfl
  · rw [← findSome?_firstConflict?_eq_some_iff]
    cases k.codeBearing.findSome? firstConflict? <;> simp

-- Both restricted tags are in the second set of the second attribute, and one more is misplaced later.
example : build ⟨fun c => if c = .type then
    [⟨"A", .int, "a", [⟨32⟩]⟩, ⟨"B", .type, "b", [⟨129⟩, ⟨176⟩, ⟨16⟩]⟩, ⟨"C", .enum, "c", [⟨32⟩]⟩]
    else [], [], []⟩ = .error ⟨"B", ⟨16⟩, .enum, .type⟩ := rfl

end PropertyTable

end AttributeTables
