import AttributeTables.PropertyTable

/-!
# The entries of a property table

The tags of an attribute are added to its byte one after the other, and each tag is checked on the
way. Without a conflict, the table holds the attributes in code order with all their tags; otherwise
the first conflict is told.
-/

namespace AttributeTables

variable {k : Catalogue} {t : PropertyTable} {d : Definition}

namespace PropertyTable

/-- The entry of an attribute without conflicts. -/
def soundEntry (d : Definition) : PropertyEntry := ⟨d.name, d.category, d.properties, d.mask⟩

/-- The first conflict of an attribute: in the first tag that has one, the lowest item. -/
def firstConflict? (d : Definition) : Option Conflict :=
  d.properties.findSome? fun tag => tag.items.findSome? (conflictOf d)

theorem addTags_eq (d : Definition) (flags : PropertySet) (tags : List PropertySet) :
    addTags d flags tags =
      match tags.findSome? fun tag => tag.items.findSome? (conflictOf d) with
      | some conflict => .error conflict
      | none => .ok (tags.foldl PropertySet.union flags) := by
  induction tags generalizing flags with
  | nil => rfl
  | cons tag tags ih =>
      rw [addTags, List.findSome?_cons]
      cases tag.items.findSome? (conflictOf d) with
      | some conflict => rfl
      | none => exact ih (flags.union tag)

theorem entryOf_eq (d : Definition) :
    entryOf d = match firstConflict? d with
      | some conflict => .error conflict
      | none => .ok (soundEntry d) := by
  rw [entryOf, addTags_eq, ← firstConflict?]
  cases firstConflict? d <;> rfl

theorem entriesOf_eq (ds : List Definition) :
    entriesOf ds = match ds.findSome? firstConflict? with
      | some conflict => .error conflict
      | none => .ok (ds.map soundEntry) := by
  induction ds with
  | nil => rfl
  | cons d ds ih =>
      rw [entriesOf, entryOf_eq, ih, List.findSome?_cons]
      cases firstConflict? d with
      | some conflict => rfl
      | none => cases ds.findSome? firstConflict? <;> rfl

/-- A build is a search for the first conflict. -/
theorem build_eq (k : Catalogue) :
    build k = match k.codeBearing.findSome? firstConflict? with
      | some conflict => .error conflict
      | none => .ok ⟨k.codeBearing.map soundEntry⟩ := by
  rw [build, entriesOf_eq]
  cases k.codeBearing.findSome? firstConflict? <;> rfl

theorem entries_of_build (h : build k = .ok t) : t.entries = k.codeBearing.map soundEntry := by
  rw [build_eq] at h
  split at h
  · cases h
  · cases h
    rfl

/-- The byte at a code is that of the attribute which comes before the code in code order. -/
theorem get?_of_build (h : build k = .ok t) (code : Code) :
    t.get? code =
      if code = 0 then none else k.codeBearing[code.toNat - 1]?.map Definition.mask := by
  have hfirst : code < firstCode ↔ code = 0 := by
    rw [UInt32.lt_iff_toNat_lt, ← UInt32.toNat_inj]
    exact Nat.lt_one_iff
  rw [get?]
  by_cases hcode : code = 0
  · rw [if_pos (hfirst.mpr hcode), if_pos hcode]
  · have hle : firstCode ≤ code := UInt32.not_lt.mp (mt hfirst.mp hcode)
    rw [if_neg (mt hfirst.mp hcode), if_neg hcode, UInt32.toNat_sub_of_le _ _ hle,
      entries_of_build h, List.getElem?_map, Option.map_map]
    rfl

end PropertyTable

end AttributeTables
