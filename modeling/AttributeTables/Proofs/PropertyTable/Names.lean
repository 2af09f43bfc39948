import AttributeTables.Proofs.PropertyTable.Tags
import AttributeTables.Proofs.Text.Lines
import Mathlib.Data.List.Basic

/-!
# Tags that are read back

The text of a set names its items, so the set can be read from it. The bit without a meaning is written
as a placeholder, and it is the only bit that is.
-/

namespace AttributeTables.PropertySet

/-- The words between the operators. -/
def words (text : String) : List String :=
  ((Text.pieces ' ' text.toList).filter (· ≠ ['|'])).map String.ofList

/-- The set that one word stands for. -/
def ofWord (word : String) : PropertySet :=
  if word = "0" then empty else (ofName? word).getD ⟨unknownBit⟩

/-- The set with the given text. -/
def ofText (text : String) : PropertySet := ((words text).map ofWord).foldl union empty

theorem ofWord_name {s item : PropertySet} (h : item ∈ s.items) : ofWord item.name = item := by
  rcases mem_items.mp h with ⟨p, -, rfl⟩ | ⟨-, rfl⟩
  · cases p <;> rfl
  · rfl

theorem toList_intercalate_cons (first : String) (others : List String) :
    (" | ".intercalate (first :: others)).toList =
      first.toList ++ others.flatMap fun s => (" | " ++ s).toList := by
  induction others generalizing first with
  | nil => simp
  | cons s others ih => simp [String.intercalate_cons_cons, ih]

theorem words_intercalate {names : List String} (hne : names ≠ [])
    (h : ∀ s ∈ names, ' ' ∉ s.toList ∧ s ≠ "|") : words (" | ".intercalate names) = names := by
  obtain ⟨first, others, rfl⟩ := List.exists_cons_of_ne_nil hne
  obtain ⟨hfirst, hothers⟩ := List.forall_mem_cons.mp h
  have hbar : ∀ s : String, s ≠ "|" → s.toList ≠ ['|'] := fun s hs heq => hs (String.toList_inj.mp heq)
  have hfilter : (others.flatMap fun s => [['|'], s.toList]).filter (· ≠ ['|']) =
      others.map String.toList := by
    rw [List.filter_flatMap, List.map_eq_flatMap]
    refine List.flatMap_congr fun s hs => ?_
    simp [hbar s (hothers s hs).2]
  rw [words, toList_intercalate_cons, Text.pieces_append_operands hfirst.1 fun s hs => (hothers s hs).1,
    List.filter_cons_of_pos (by simpa using hbar first hfirst.2), hfilter]
  simp

theorem empty_union (s : PropertySet) : empty.union s = s :=
  congrArg PropertySet.mk UInt8.zero_or

theorem items_ne_nil {s : PropertySet} (h : s ≠ empty) : s.items ≠ [] := by
  intro hnil
  have hitems := foldl_union_items empty s
  rw [hnil, empty_union] at hitems
  exact h hitems.symm

theorem ofText_text (s : PropertySet) : ofText s.text = s := by
  rw [text]
  split
  · rename_i h
    rw [beq_iff_eq.mp h]
    rfl
  · rename_i h
    have hname : ∀ s ∈ names, ' ' ∉ s.toList ∧ s ≠ "|" := by decide
    have hwords : words (" | ".intercalate (s.items.map name)) = s.items.map name :=
      words_intercalate (mt List.map_eq_nil_iff.mp (items_ne_nil (mt beq_iff_eq.mpr h)))
        (List.forall_mem_map.mpr fun item _ => hname _ (name_mem_names item))
    have hitems : s.items.map (ofWord ∘ name) = s.items.map id :=
      List.map_congr_left fun item hitem => ofWord_name hitem
    rw [ofText, hwords, List.map_map, hitems, List.map_id, foldl_union_items, empty_union]

theorem isLine_text (s : PropertySet) : Text.IsLine s.text := by
  have hname : ∀ s ∈ names, Text.IsLine s := by decide
  have hline : ∀ item : PropertySet, Text.IsLine item.name := fun item => hname _ (name_mem_names item)
  rw [text]
  split
  · decide
  · rename_i h
    obtain ⟨first, others, hitems⟩ :=
      List.exists_cons_of_ne_nil (items_ne_nil (mt beq_iff_eq.mpr h))
    intro x hx
    rw [hitems, List.map_cons, toList_intercalate_cons, List.flatMap_map] at hx
    rcases List.mem_append.mp hx with hx | hx
    · exact hline first x hx
    · obtain ⟨item, -, hx⟩ := List.mem_flatMap.mp hx
      exact Text.isLine_append.mpr ⟨by decide, hline item⟩ x hx

theorem text_injective : Function.Injective text := Function.LeftInverse.injective ofText_text

end AttributeTables.PropertySet
