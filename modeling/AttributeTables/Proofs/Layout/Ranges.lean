import AttributeTables.Layout
import Mathlib.Data.Set.Card
import Mathlib.Order.Interval.Finset.Nat

/-!
# The size of a range

A range counts its codes by 32-bit arithmetic that may overflow at either end: no code comes after
the largest one, and a range must not end more than one code before it starts. Apart from that the
result is the number of codes in the range, which is zero for a range that ends right before its
start.
-/

namespace AttributeTables.CodeRange

variable {r : CodeRange} {code : Code} {n : Nat}

/-! ## Membership -/

theorem contains_iff :
    r.contains code = true ↔ r.first.toNat ≤ code.toNat ∧ code.toNat ≤ r.last.toNat := by
  simp [contains, UInt32.le_iff_toNat_le]

theorem image_toNat_contains (r : CodeRange) :
    UInt32.toNat '' {code : Code | r.contains code = true} =
      Finset.Icc r.first.toNat r.last.toNat := by
  ext n
  simp only [Set.mem_image, Set.mem_ofPred_eq, contains_iff, Finset.coe_Icc, Set.mem_Icc]
  constructor
  · rintro ⟨code, hcode, rfl⟩
    exact hcode
  · intro hn
    have htoNat : (UInt32.ofNat n).toNat = n :=
      UInt32.toNat_ofNat_of_lt' (Nat.lt_of_le_of_lt hn.2 r.last.toNat_lt_size)
    exact ⟨.ofNat n, htoNat.symm ▸ hn, htoNat⟩

theorem ncard_contains (r : CodeRange) :
    {code : Code | r.contains code = true}.ncard = r.last.toNat + 1 - r.first.toNat := by
  have hinjective : Function.Injective UInt32.toNat := fun _ _ => UInt32.toNat_inj.mp
  rw [← Set.ncard_image_of_injective _ hinjective, image_toNat_contains, Set.ncard_coe_finset,
    Nat.card_Icc]

theorem isEmpty_iff : r.isEmpty = true ↔ ∀ code, r.contains code = false := by
  have hlt : r.isEmpty = true ↔ r.last.toNat < r.first.toNat := by
    simp [isEmpty, UInt32.lt_iff_toNat_lt]
  constructor
  · intro hempty code
    rw [Bool.eq_false_iff, Ne, contains_iff]
    have := hlt.mp hempty
    omega
  · -- Otherwise the range contains its own first code.
    intro hnone
    have hfirst := mt contains_iff.mpr (Bool.eq_false_iff.mp (hnone r.first))
    exact hlt.mpr (by omega)

/-! ## Size -/

/-- No code comes after the largest one. -/
theorem size_of_largest (h : ¬ r.last.toNat + 1 < UInt32.size) : r.size = .error .addition := by
  rw [size, Code.next, if_neg h]

/-- The first code must not lie behind the code after the last one. -/
theorem size_of_lt (h : r.last.toNat + 1 < UInt32.size) :
    r.size = if r.last.toNat + 1 < r.first.toNat then .error .subtraction
      else .ok (r.last.toNat + 1 - r.first.toNat) := by
  have hstop : (r.last + 1).toNat = r.last.toNat + 1 := by
    rw [UInt32.toNat_add, UInt32.toNat_one, Nat.mod_eq_of_lt h]
  rw [size, Code.next, if_pos h]
  simp only [UInt32.lt_iff_toNat_lt, hstop]
  split_ifs with hfirst
  · rfl
  · have hle : r.first ≤ r.last + 1 := by
      rw [UInt32.le_iff_toNat_le, hstop]
      omega
    rw [UInt32.toNat_sub_of_le _ _ hle, hstop]

theorem size_eq_ok_iff :
    r.size = .ok n ↔ r.last.toNat + 1 < UInt32.size ∧ r.first.toNat + n = r.last.toNat + 1 := by
  by_cases hlast : r.last.toNat + 1 < UInt32.size
  · rw [size_of_lt hlast]
    split_ifs with hfirst
    · simp only [false_iff]
      omega
    · rw [Except.ok.injEq]
      omega
  · simp [size_of_largest hlast, hlast]

/-- The size of a range is computed without overflow exactly if there is a code after the last one
and the first code is not behind it. Then it is the number of codes in the range. A range is empty
exactly if it contains no code. -/
theorem size_counts_contained (r : CodeRange) :
    ((∃ n, r.size = .ok n) ↔
      r.last.toNat < UInt32.size - 1 ∧ r.first.toNat ≤ r.last.toNat + 1) ∧
    (∀ n, r.size = .ok n → n = {code : Code | r.contains code = true}.ncard) ∧
    (r.isEmpty = true ↔ ∀ code, r.contains code = false) := by
  refine ⟨?_, fun n hn => ?_, isEmpty_iff⟩
  · have hsize : r.last.toNat < UInt32.size - 1 ↔ r.last.toNat + 1 < UInt32.size := by omega
    simp only [size_eq_ok_iff, hsize, exists_and_left, and_congr_right_iff]
    intro _
    exact ⟨fun ⟨n, hn⟩ => by omega, fun hfirst => ⟨r.last.toNat + 1 - r.first.toNat, by omega⟩⟩
  · have := (size_eq_ok_iff.mp hn).2
    rw [ncard_contains]
    omega

/-- A category without attributes has a size; all codes together are one too many. -/
example : size ⟨1, 0⟩ = .ok 0 ∧ size ⟨0, 4294967295⟩ = .error .addition := ⟨rfl, rfl⟩

end AttributeTables.CodeRange
