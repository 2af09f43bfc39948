import AttributeTables.Proofs.World.Publication

/-!
# Modes of publication

What a publication answers and leaves in each mode, once its failure is dropped. A text that is written
if it changes ends up where one that is written in any case does, unless there is a file that refuses
to be read or holds something that is no text: then the comparison fails and the file is kept.
-/

namespace AttributeTables

open Files (Location Tree)

variable {w w' : World} {path : Path} {contents text : String} {mode : WriteMode} {l : Location}
  {r : Except Failure Published} {p : Published}

namespace World

/-! ## What is compared -/

theorem exists_readText_iff : (∃ old, w.readText path = .ok old) ↔
    ∃ bytes, w.files.read w.working path = .ok bytes ∧ bytes.IsValidUTF8 := by
  simp only [readText_eq_ok_iff_read]
  constructor
  · rintro ⟨old, hread⟩
    exact ⟨_, hread, old.isValidUTF8⟩
  · rintro ⟨bytes, hread, hvalid⟩
    exact ⟨.fromUTF8 bytes hvalid, hread⟩

theorem readText_eq_notFound_iff :
    w.readText path = .error .notFound ↔ w.files.read w.working path = .error .notFound := by
  rw [World.readText]
  cases w.files.read w.working path with
  | error fault => simp
  | ok bytes =>
      dsimp only
      cases String.fromUTF8? bytes <;> simp

/-! ## Only comparing -/

/-- The answer to a comparison, told by what the file holds. -/
inductive Comparison (w : World) (path : Path) (contents : String) :
    Except Failure Published → Prop where
  | same (h : w.readText path = .ok contents) : Comparison w path contents (.ok .unchanged)
  | other {old : String} (hne : old ≠ contents) (h : w.readText path = .ok old) :
      Comparison w path contents (.error (.outdated path))
  | missing (h : w.readText path = .error .notFound) :
      Comparison w path contents (.error (.outdated path))
  | unreadable {fault : Files.Fault} (hne : fault ≠ .notFound) (h : w.readText path = .error fault) :
      Comparison w path contents (.error (.unreadable path fault))

theorem comparison_publishFile (w : World) (path : Path) (contents : String) :
    w.Comparison path contents (Task.outcome (publishFile path contents .check) w).1 := by
  rw [publishFile_of_ne_always (by decide), Task.outcome_bind, outcome_existingText]
  cases htext : w.readText path with
  | ok old =>
      dsimp only
      by_cases hold : old = contents
      · rw [if_pos (by simpa using hold)]
        exact .same (hold ▸ htext)
      · rw [if_neg (by simpa using hold)]
        exact .other hold htext
  | error fault =>
      by_cases hfault : fault = .notFound
      · subst hfault
        exact .missing htext
      · cases fault with
        | notFound => exact absurd rfl hfault
        | _ => exact .unreadable hfault htext

theorem Comparison.outdated_iff (h : w.Comparison path contents r) :
    r = .error (.outdated path) ↔ w.readText path = .error .notFound ∨
      ∃ old, old ≠ contents ∧ w.readText path = .ok old := by
  cases h with
  | same h => exact iff_of_false nofun (by simp [h])
  | @other old hne h => exact iff_of_true rfl (.inr ⟨old, hne, h⟩)
  | missing h => exact iff_of_true rfl (.inl h)
  | unreadable hne h => exact iff_of_false nofun (by simp [h, hne])

/-! ## What is left in the end -/

/-- What can become of a world when a text is published under a path and the failure, if there is one,
is dropped. -/
inductive Settlement (w : World) (path : Path) (contents : String) (mode : WriteMode) :
    Except Failure Published → World → Prop where
  | unchanged {w' : World} (holds : w.Holds path contents mode) (same : w.SameFiles w') :
      Settlement w path contents mode (.ok .unchanged) w'
  | written {target : Location} {w' : World} (writes : w.Writes path contents mode)
      (accepted : w.Accepts path contents)
      (located : w.files.locateTarget w.working path = .ok target)
      (same : (w.withFile target contents).SameFiles w') :
      Settlement w path contents mode (.ok .written) w'
  | refused {f : Failure} {w' : World} (holds : ¬ w.Holds path contents mode)
      (refused : ¬ (w.Writes path contents mode ∧ w.Accepts path contents))
      (same : w.SameFiles w') : Settlement w path contents mode (.error f) w'

theorem settlement_publish (w : World) (path : Path) (contents : String) (mode : WriteMode) :
    ∃ r w', Task.conclusion (publish (some path) contents mode) w = (r, w') ∧
      r = (Task.outcome (publishFile path contents mode) w).1 ∧
      w.Settlement path contents mode r w' := by
  obtain ⟨r, w', houtcome, hp⟩ := publication_publishFile w path contents mode
  rw [houtcome]
  cases hp with
  | unchanged holds same =>
      exact ⟨_, _, Task.conclusion_of_ok houtcome, rfl, .unchanged holds same⟩
  | written writes accepted located same =>
      exact ⟨_, _, Task.conclusion_of_ok houtcome, rfl, .written writes accepted located same⟩
  | refused holds refused unstranded nothing same =>
      refine ⟨_, _, Task.conclusion_of_error houtcome, rfl, .refused holds refused ?_⟩
      rw [released_of_nothing nothing]
      exact same
  | stranded writes strands same =>
      exact ⟨_, _, Task.conclusion_of_error houtcome, rfl,
        .refused writes.not_holds (·.2.not_strands strands)
          (released_of_stranded strands.free same)⟩

theorem Settlement.not_printed (h : w.Settlement path contents mode r w') : r ≠ .ok .printed := by
  rintro rfl
  cases h

theorem Settlement.unchanged_iff (h : w.Settlement path contents mode r w') :
    r = .ok .unchanged ↔ w.Holds path contents mode := by
  cases h with
  | unchanged holds same => exact iff_of_true rfl holds
  | written writes accepted located same => exact iff_of_false nofun writes.not_holds
  | refused holds refused same => exact iff_of_false nofun holds

theorem Settlement.written_iff (h : w.Settlement path contents mode r w') :
    r = .ok .written ↔ w.Writes path contents mode ∧ w.Accepts path contents := by
  cases h with
  | unchanged holds same => exact iff_of_false nofun fun hw => hw.1.not_holds holds
  | written writes accepted located same => exact iff_of_true rfl ⟨writes, accepted⟩
  | refused holds refused same => exact iff_of_false nofun refused

/-- Only a text that is written changes anything. -/
theorem Settlement.sameFiles (h : w.Settlement path contents mode r w') (hr : r ≠ .ok .written) :
    w.SameFiles w' := by
  cases h with
  | unchanged holds same => exact same
  | written writes accepted located same => exact absurd rfl hr
  | refused holds refused same => exact same

/-- A text that is written is in a file that refuses nothing. -/
theorem Settlement.put (h : w.Settlement path contents mode (.ok .written) w') :
    ∃ l, w.Put w' path contents l ∧ w'.files.node? l = some (.file contents.toByteArray) := by
  cases h with
  | written writes accepted located same =>
      refine ⟨_, put_withFile located same, ?_⟩
      rw [same.files, node?_withFile_self (Tree.locate_of_locateTarget located).2.ne_nil]

theorem Settlement.ne_check (h : w.Settlement path contents mode (.ok .written) w') :
    mode ≠ .check := by
  rintro rfl
  exact (h.written_iff.mp rfl).1

/-- A publication in a file is never printed. The file need not be written exactly if the mode allows
to look at it and it holds the text, and it is written exactly if this is to be done and can be done.
Only a text that is written changes anything, and it changes only what the path leads to; this does
not happen when texts are only compared. Then the answer is told by what the file holds. -/
theorem publish_by_mode (w : World) (path : Path) (contents : String) (mode : WriteMode) :
    ∃ r w', Task.conclusion (publish (some path) contents mode) w = (r, w') ∧
      r ≠ .ok .printed ∧
      (r = .ok .unchanged ↔
        mode ≠ .always ∧ w.files.read w.working path = .ok contents.toByteArray) ∧
      (r = .ok .written ↔ w.Writes path contents mode ∧ w.Accepts path contents) ∧
      (r ≠ .ok .written → w'.files = w.files) ∧
      (r = .ok .written → mode ≠ .check ∧
        w'.files.read w'.working path = .ok contents.toByteArray ∧
        ∃ l, w.files.locate w.working path = .ok l ∧
          w'.files.node? l = some (.file contents.toByteArray) ∧
          ∀ k, k ≠ l → w'.files.node? k = w.files.node? k) ∧
      (mode = .check →
        (r = .error (.outdated path) ↔ w.files.read w.working path = .error .notFound ∨
          ∃ old : String, old ≠ contents ∧
            w.files.read w.working path = .ok old.toByteArray) ∧
        (r = .ok .unchanged ∨ r = .error (.outdated path) ∨
          ∃ fault, w.readText path = .error fault ∧ r = .error (.unreadable path fault))) := by
  obtain ⟨r, w', hconclusion, houtcome, hs⟩ := settlement_publish w path contents mode
  refine ⟨r, w', hconclusion, hs.not_printed, ?_, hs.written_iff,
    fun hr => (hs.sameFiles hr).files, ?_, ?_⟩
  · rw [hs.unchanged_iff, Holds, readText_eq_ok_iff_read]
  · rintro rfl
    obtain ⟨l, hput, hheld⟩ := hs.put
    exact ⟨hs.ne_check, readText_eq_ok_iff_read.mp hput.readText, l, hput.located, hheld,
      hput.frame⟩
  · rintro rfl
    have hcomparison := w.comparison_publishFile path contents
    rw [← houtcome] at hcomparison
    refine ⟨?_, ?_⟩
    · rw [hcomparison.outdated_iff, readText_eq_notFound_iff]
      simp only [readText_eq_ok_iff_read]
    · cases hcomparison with
      | same h => exact .inl rfl
      | other hne h => exact .inr (.inl rfl)
      | missing h => exact .inr (.inl rfl)
      | @unreadable fault hne h => exact .inr (.inr ⟨fault, h, rfl⟩)

/-! ## Writing if the text changes -/

/-- The comparison finds a text, or no file. -/
def Compares (w : World) (path : Path) : Prop :=
  w.readText path = .error .notFound ∨ ∃ old, w.readText path = .ok old

theorem compares_iff : w.Compares path ↔ w.files.read w.working path = .error .notFound ∨
    ∃ bytes, w.files.read w.working path = .ok bytes ∧ bytes.IsValidUTF8 := by
  rw [Compares, readText_eq_notFound_iff, exists_readText_iff]

/-- Where a text can be written and the comparison works, comparing first leaves the same files. -/
theorem Settlement.same_ifChanged {r' : Except Failure Published} {w'' : World}
    (h : w.Settlement path contents .always (.ok p) w')
    (h' : w.Settlement path contents .ifChanged r' w'') (hcompares : w.Compares path) :
    ∃ q, r' = .ok q ∧ ∀ l, w''.files.node? l = w'.files.node? l := by
  have hlooked : w.Holds path contents .ifChanged ∨ w.Writes path contents .ifChanged := by
    rcases hcompares with hnone | ⟨old, hold⟩
    · exact .inr (.inl hnone)
    · by_cases heq : old = contents
      · exact .inl ⟨by decide, heq ▸ hold⟩
      · exact .inr (.inr ⟨old, hold, heq⟩)
  cases h with
  | unchanged holds same => exact absurd rfl holds.1
  | written writes accepted located same =>
      cases h' with
      | unchanged holds same' =>
          refine ⟨_, rfl, fun l => ?_⟩
          rw [same.files, node?_withFile_of_readText located holds.2, same'.files]
      | written writes' accepted' located' same' =>
          cases located.symm.trans located'
          exact ⟨_, rfl, fun l => by rw [same.files, same'.files]⟩
      | refused holds refused same' =>
          exact absurd ⟨hlooked.resolve_left holds, accepted⟩ refused

theorem Settlement.compares (h : w.Settlement path contents .ifChanged (.ok p) w') :
    w.Compares path := by
  cases h with
  | unchanged holds same => exact .inr ⟨contents, holds.2⟩
  | written writes accepted located same =>
      rcases writes with hnone | ⟨old, hold, -⟩
      · exact .inl hnone
      · exact .inr ⟨old, hold⟩

/-- Where a text can be written, it is also written if it changes, with the same files in the end,
exactly if reading the file finds none there or a text: it must not refuse to be read, nor hold
something that is no text. -/
theorem publish_ifChanged_refines_iff
    (h : Task.conclusion (publish (some path) contents .always) w = (.ok p, w')) :
    (∃ q w'', Task.conclusion (publish (some path) contents .ifChanged) w = (.ok q, w'') ∧
        ∀ l, w''.files.node? l = w'.files.node? l) ↔
      w.files.read w.working path = .error .notFound ∨
        ∃ bytes, w.files.read w.working path = .ok bytes ∧ bytes.IsValidUTF8 := by
  obtain ⟨r, w₁, hconclusion, -, halways⟩ := settlement_publish w path contents .always
  cases hconclusion.symm.trans h
  obtain ⟨r, w₂, hconclusion, -, hchanged⟩ := settlement_publish w path contents .ifChanged
  rw [← compares_iff]
  constructor
  · rintro ⟨q, w'', hok, -⟩
    cases hconclusion.symm.trans hok
    exact hchanged.compares
  · intro hcompares
    obtain ⟨q, rfl, hsame⟩ := halways.same_ifChanged hchanged hcompares
    exact ⟨q, w₂, hconclusion, hsame⟩

/-- The file holds another text before. -/
theorem publish_ifChanged_refines_stale :
    let w : World := { files := ⟨[(["out.inc"], .file "previous\n".toByteArray)]⟩ }
    ∃ q w' w'', Task.conclusion (publish (some ⟨"out.inc"⟩) "text\n" .always) w = (.ok .written, w') ∧
      Task.conclusion (publish (some ⟨"out.inc"⟩) "text\n" .ifChanged) w = (.ok q, w'') ∧
      ∀ l, w''.files.node? l = w'.files.node? l := by
  intro w
  have hanswer : (Task.conclusion (publish (some ⟨"out.inc"⟩) "text\n" .always) w).1 =
      .ok .written := by
    decide +kernel
  have hread : w.files.read w.working ⟨"out.inc"⟩ = .ok "previous\n".toByteArray := rfl
  obtain ⟨w', halways⟩ := Task.exists_conclusion hanswer
  obtain ⟨q, w'', hchanged, hsame⟩ := (publish_ifChanged_refines_iff halways).mpr
    (.inr ⟨_, hread, "previous\n".isValidUTF8⟩)
  exact ⟨q, w', w'', halways, hchanged, hsame⟩

/-- A byte that is no text can be replaced, but not if it is to be compared first. -/
theorem publish_ifChanged_refused :
    let w : World := { files := ⟨[(["out.inc"], .file ⟨#[255]⟩)]⟩ }
    (∃ w', Task.conclusion (publish (some ⟨"out.inc"⟩) "text\n" .always) w = (.ok .written, w')) ∧
      ∃ w', Task.conclusion (publish (some ⟨"out.inc"⟩) "text\n" .ifChanged) w =
        (.error (.unreadable ⟨"out.inc"⟩ .notText), w') := by
  intro w
  have halways : (Task.conclusion (publish (some ⟨"out.inc"⟩) "text\n" .always) w).1 =
      .ok .written := by
    decide +kernel
  have hchanged : (Task.conclusion (publish (some ⟨"out.inc"⟩) "text\n" .ifChanged) w).1 =
      .error (.unreadable ⟨"out.inc"⟩ .notText) := by
    decide +kernel
  exact ⟨Task.exists_conclusion halways, Task.exists_conclusion hchanged⟩

/-- A file that refuses to be read can be replaced too, even by the text that it has. -/
example :
    let w : World :=
      { files := ⟨[(["out.inc"], .file "text\n".toByteArray { read := some .permissionDenied })]⟩ }
    (Task.conclusion (publish (some ⟨"out.inc"⟩) "text\n" .always) w).1 = .ok .written ∧
      (Task.conclusion (publish (some ⟨"out.inc"⟩) "text\n" .ifChanged) w).1 =
        .error (.unreadable ⟨"out.inc"⟩ .permissionDenied) := by
  decide +kernel

end World

end AttributeTables
