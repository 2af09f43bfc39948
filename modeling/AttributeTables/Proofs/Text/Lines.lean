import AttributeTables.Text.Lines

/-!
# Lines that are read back

A text that was written line by line gives its lines back, as long as none of them breaks.
-/

namespace AttributeTables.Text

/-- The lines of a text. -/
def readLines (s : String) : List String := (lines s.toList).map String.ofList

/-- The text has no line break of its own. -/
def IsLine (s : String) : Prop := ∀ x ∈ s.toList, x ≠ '\n' ∧ x ≠ '\r'

instance (s : String) : Decidable (IsLine s) := List.decidableBAll _ s.toList

@[simp] theorem isLine_append {s t : String} : IsLine (s ++ t) ↔ IsLine s ∧ IsLine t := by
  simp only [IsLine, String.toList_append, List.forall_mem_append]

theorem isLine_toString (n : Nat) : IsLine (toString n) := by
  intro x hx
  rw [Nat.toString_eq_repr, Nat.toList_repr] at hx
  have hdigit := Nat.isDigit_of_mem_toDigits (by decide) (by decide) hx
  constructor <;> rintro rfl <;> cases hdigit

/-! ## Pieces -/

theorem pieces_append_cons {separator : Char} {piece : List Char} (h : separator ∉ piece)
    (rest : List Char) :
    pieces separator (piece ++ separator :: rest) = piece :: pieces separator rest := by
  induction piece with
  | nil => simp [pieces]
  | cons c piece ih =>
      obtain ⟨hc, hpiece⟩ := not_or.mp (mt List.mem_cons.mpr h)
      simp [pieces, ih hpiece, Ne.symm hc]

theorem pieces_eq_singleton {separator : Char} {piece : List Char} (h : separator ∉ piece) :
    pieces separator piece = [piece] := by
  induction piece with
  | nil => rfl
  | cons c piece ih =>
      obtain ⟨hc, hpiece⟩ := not_or.mp (mt List.mem_cons.mpr h)
      simp [pieces, ih hpiece, Ne.symm hc]

theorem append_cons_inj {separator : Char} {a b x y : List Char} (ha : separator ∉ a)
    (hb : separator ∉ b) (h : a ++ separator :: x = b ++ separator :: y) : a = b ∧ x = y := by
  have hpieces := congrArg (pieces separator) h
  rw [pieces_append_cons ha, pieces_append_cons hb] at hpieces
  obtain ⟨rfl, hrest⟩ := List.cons.inj hpieces
  rw [← intercalate_pieces separator x, hrest, intercalate_pieces]
  exact ⟨rfl, rfl⟩

/-- An expression cut at its blanks. -/
theorem pieces_append_operands {first : List Char} (hfirst : ' ' ∉ first) {operands : List String}
    (h : ∀ s ∈ operands, ' ' ∉ s.toList) :
    pieces ' ' (first ++ operands.flatMap fun s => (" | " ++ s).toList) =
      first :: operands.flatMap fun s => [['|'], s.toList] := by
  induction operands generalizing first with
  | nil => rw [List.flatMap_nil, List.flatMap_nil, List.append_nil, pieces_eq_singleton hfirst]
  | cons s operands ih =>
      obtain ⟨hs, hoperands⟩ := List.forall_mem_cons.mp h
      have htext : first ++ ((s :: operands).flatMap fun s => (" | " ++ s).toList) =
          first ++ ' ' :: (['|'] ++ ' ' :: (s.toList ++
            operands.flatMap fun s => (" | " ++ s).toList)) := by
        simp
      rw [htext, pieces_append_cons hfirst, pieces_append_cons (by decide), ih hs hoperands]
      rfl

/-- No piece holds the separator. -/
theorem not_mem_of_mem_pieces {separator : Char} {cs piece : List Char}
    (h : piece ∈ pieces separator cs) : separator ∉ piece := by
  induction cs generalizing piece with
  | nil => simp_all [pieces]
  | cons c cs ih =>
      rw [pieces] at h
      split at h
      · rcases List.mem_cons.mp h with rfl | h
        · exact List.not_mem_nil
        · exact ih h
      · rename_i hc
        have hne : separator ≠ c := fun heq => hc (beq_iff_eq.mpr heq.symm)
        cases hpieces : pieces separator cs with
        | nil => exact absurd hpieces (pieces_ne_nil separator cs)
        | cons first rest =>
            rw [hpieces] at h ih
            rcases List.mem_cons.mp h with rfl | h
            · exact List.not_mem_cons_of_ne_of_not_mem hne (ih List.mem_cons_self)
            · exact ih (List.mem_cons_of_mem _ h)

theorem newline_not_mem_of_mem_readLines {s line : String} (h : line ∈ readLines s) :
    '\n' ∉ line.toList := by
  obtain ⟨cs, hcs, rfl⟩ := List.mem_map.mp h
  rw [String.toList_ofList]
  rcases List.mem_append.mp hcs with hcs | hcs
  · obtain ⟨piece, hpiece, rfl⟩ := List.mem_map.mp hcs
    have hnot := not_mem_of_mem_pieces (List.dropLast_subset _ hpiece)
    rw [dropReturn]
    split
    · exact fun hmem => hnot (List.dropLast_subset _ hmem)
    · exact hnot
  · have hlast := Option.mem_toList.mp (List.mem_filter.mp hcs).1
    exact not_mem_of_mem_pieces (List.mem_of_getLast? hlast)

theorem toList_unlines (ls : List String) :
    (unlines ls).toList = ls.flatMap fun line => line.toList ++ ['\n'] := by
  simp [unlines, String.toList_join, List.flatMap_map]

theorem pieces_unlines {ls : List String} (h : ∀ line ∈ ls, '\n' ∉ line.toList) :
    pieces '\n' (unlines ls).toList = ls.map String.toList ++ [[]] := by
  rw [toList_unlines]
  induction ls with
  | nil => rfl
  | cons line ls ih =>
      obtain ⟨hline, hls⟩ := List.forall_mem_cons.mp h
      rw [List.flatMap_cons, List.append_assoc, List.singleton_append, pieces_append_cons hline,
        ih hls, List.map_cons, List.cons_append]

/-- A carriage return is taken for the end of a line only at its end. -/
theorem readLines_unlines_of_getLast? {ls : List String} (hbreak : ∀ line ∈ ls, '\n' ∉ line.toList)
    (hreturn : ∀ line ∈ ls, line.toList.getLast? ≠ some '\r') : readLines (unlines ls) = ls := by
  have hdrop : ∀ line ∈ ls, dropReturn line.toList = line.toList := by
    intro line hline
    rw [dropReturn, if_neg (by simpa using hreturn line hline)]
  have hmap : ls.map (String.ofList ∘ dropReturn ∘ String.toList) = ls.map id :=
    List.map_congr_left fun line hline => by simp [hdrop line hline]
  simp [readLines, lines, pieces_unlines hbreak, hmap]

theorem readLines_unlines {ls : List String} (h : ∀ line ∈ ls, IsLine line) :
    readLines (unlines ls) = ls := by
  refine readLines_unlines_of_getLast? (fun line hline hmem => ?_) fun line hline hlast => ?_
  · exact (h line hline _ hmem).1 rfl
  · exact (h line hline _ (List.mem_of_getLast? hlast)).2 rfl

end AttributeTables.Text
