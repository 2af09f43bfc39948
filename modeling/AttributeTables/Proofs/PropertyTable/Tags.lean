import AttributeTables.Definition
import Mathlib.Data.Nat.Bitwise

/-!
# Tags in a byte

The byte of an attribute holds a tag if and only if one of the declared sets does, however the tags
are spread over these sets. Taken apart into single bits, the sets still make up the same byte.
-/

namespace AttributeTables

variable {s t : PropertySet} {p : Property} {d : Definition}

theorem Property.mem_all (p : Property) : p ∈ all := by
  cases p <;> decide

namespace PropertySet

theorem has_iff : s.has p = true ↔ s.bits &&& p.bit ≠ 0 := bne_iff_ne

theorem bits_union_and (s t : PropertySet) (b : UInt8) :
    (s.union t).bits &&& b = (s.bits &&& b) ||| (t.bits &&& b) :=
  UInt8.toBitVec_inj.mp BitVec.and_or_distrib_right

theorem has_union : (s.union t).has p = true ↔ s.has p = true ∨ t.has p = true := by
  rw [has_iff, has_iff, has_iff, bits_union_and, Ne, UInt8.or_eq_zero_iff, not_and_or]

theorem has_foldl_union (tags : List PropertySet) :
    (tags.foldl union s).has p = true ↔ s.has p = true ∨ ∃ tag ∈ tags, tag.has p = true := by
  induction tags generalizing s with
  | nil => simp
  | cons tag tags ih => simp [ih, has_union, or_assoc]

/-! ## Single bits -/

theorem bits_and_eq {m : UInt8} {i : Nat} (hm : m.toNat = 2 ^ i) (b : UInt8) :
    b &&& m = if (b &&& m != 0) = true then m else 0 := by
  have hcases : b &&& m = 0 ∨ b &&& m = m := by
    rw [← UInt8.toNat_inj, ← UInt8.toNat_inj, UInt8.toNat_and, hm, Nat.and_two_pow]
    cases b.toNat.testBit i <;> simp
  rcases hcases with h | h
  · simp [h]
  · by_cases hzero : m = 0
    · simp [hzero]
    · rw [h, if_pos (bne_iff_ne.mpr hzero)]

theorem exists_toNat_bit : ∀ p : Property, ∃ i, p.bit.toNat = 2 ^ i
  | .fnAttr => ⟨0, rfl⟩
  | .paramAttr => ⟨1, rfl⟩
  | .retAttr => ⟨2, rfl⟩
  | .intersectPreserve => ⟨3, rfl⟩
  | .intersectAnd => ⟨4, rfl⟩
  | .intersectMin => ⟨5, rfl⟩
  | .intersectCustom => ⟨6, rfl⟩

theorem foldl_union_filter (s t : PropertySet) (ps : List Property) :
    ((ps.filter t.has).map single).foldl union s =
      ⟨ps.foldl (fun bits p => bits ||| (t.bits &&& p.bit)) s.bits⟩ := by
  induction ps generalizing s with
  | nil => rfl
  | cons p ps ih =>
      obtain ⟨i, hi⟩ := exists_toNat_bit p
      have hbit : t.bits &&& p.bit = if t.has p = true then p.bit else 0 := bits_and_eq hi t.bits
      rw [List.foldl_cons, hbit, List.filter_cons]
      by_cases hp : t.has p = true
      · rw [if_pos hp, if_pos hp, List.map_cons, List.foldl_cons, ih]
        rfl
      · rw [if_neg hp, if_neg hp, ih, UInt8.or_zero]

/-- A set is made up of its items. -/
theorem foldl_union_items (s t : PropertySet) : t.items.foldl union s = s.union t := by
  have hlast : ∀ u : PropertySet, (if t.bits &&& unknownBit != 0 then [⟨unknownBit⟩] else []).foldl
      union u = ⟨u.bits ||| (t.bits &&& unknownBit)⟩ := by
    intro u
    rw [bits_and_eq (i := 7) rfl]
    split
    · rfl
    · simp
  have hand : ∀ m n : UInt8, (t.bits &&& m) ||| (t.bits &&& n) = t.bits &&& (m ||| n) :=
    fun m n => UInt8.toBitVec_inj.mp BitVec.and_or_distrib_left.symm
  have hall : Property.all.foldl (fun bits p => bits ||| (t.bits &&& p.bit)) s.bits |||
      (t.bits &&& unknownBit) = s.bits ||| (t.bits &&& 255) := by
    simp only [Property.all, List.foldl_cons, List.foldl_nil, UInt8.or_assoc, hand]
    rfl
  -- Each item is the part of the set under a mask of one bit, and the masks cover the byte.
  rw [items, List.foldl_append, foldl_union_filter, hlast, hall]
  exact congrArg (fun bits => PropertySet.mk (s.bits ||| bits)) UInt8.and_neg_one

theorem foldl_union_flatMap_items (s : PropertySet) (tags : List PropertySet) :
    (tags.flatMap items).foldl union s = tags.foldl union s := by
  induction tags generalizing s with
  | nil => rfl
  | cons tag tags ih =>
      rw [List.flatMap_cons, List.foldl_append, foldl_union_items, ih, List.foldl_cons]

theorem mem_items {item : PropertySet} : item ∈ s.items ↔
    (∃ p, s.has p = true ∧ item = single p) ∨ s.bits &&& unknownBit ≠ 0 ∧ item = ⟨unknownBit⟩ := by
  rw [items, List.mem_append]
  refine or_congr ?_ ?_
  · simp only [List.mem_map, List.mem_filter, Property.mem_all, true_and, eq_comm]
  · by_cases h : s.bits &&& unknownBit = 0 <;> simp [h]

/-! ## Names -/

/-- The names of sets, with the two placeholders. -/
def names : List String := "<none>" :: "<multiple>" :: Property.all.map Property.name

theorem name_mem_names (s : PropertySet) : s.name ∈ names := by
  rw [name]
  split
  · exact List.mem_cons_self
  · refine List.mem_cons_of_mem _ ?_
    cases s.property? with
    | none => exact List.mem_cons_self
    | some p => exact List.mem_cons_of_mem _ (List.mem_map_of_mem (Property.mem_all p))

end PropertySet

theorem Definition.has_mask : d.mask.has p = true ↔ ∃ tag ∈ d.properties, tag.has p = true := by
  have hempty : PropertySet.empty.has p = false := by cases p <;> rfl
  simp [mask, PropertySet.has_foldl_union, hempty]

end AttributeTables
