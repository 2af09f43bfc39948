import AttributeTables.Proofs.Files.Locations
import AttributeTables.Publication
import AttributeTables.World

/-!
# Replaced files

A file is replaced by moving a temporary file in its place. Either all of this happens or nothing, with
one exception: if the move is refused, the temporary file is stranded. The failure knows it, and
whoever drops the failure removes it.
-/

namespace AttributeTables

open Files (Location Tree)

variable {α β : Type} {w w' : World} {path : Path} {contents : String} {f : Failure} {l : Location}

/-! ## Tasks -/

/-- The world after a failure was dropped in it. -/
def World.released (w : World) (f : Failure) : World :=
  match f.leftover? with
  | some leftover => w.remove leftover
  | none => w

theorem Failure.release_run (f : Failure) (w : World) :
    (f.release : StateM World Unit).run w = ((), w.released f) := by
  rw [release, World.released]
  cases f.leftover? <;> rfl

namespace Task

/-- What a task comes to in a world, and the world after it. A failure still holds what it has left
over. -/
def outcome (task : Task (StateM World) α) (w : World) : Except Failure α × World :=
  (ExceptT.run task).run w

/-- What a task comes to in a world when its failure, if there is one, is dropped at the end. -/
def conclusion (task : Task (StateM World) α) (w : World) : Except Failure α × World :=
  (Task.conclude task).run w

theorem conclusion_of_ok {task : Task (StateM World) α} {a : α}
    (h : outcome task w = (.ok a, w')) : conclusion task w = (.ok a, w') := by
  simp only [conclusion, conclude, StateT.run_bind]
  rw [outcome] at h
  rw [h]
  rfl

theorem conclusion_of_error {task : Task (StateM World) α} {f : Failure}
    (h : outcome task w = (.error f, w')) : conclusion task w = (.error f, w'.released f) := by
  simp only [conclusion, conclude, StateT.run_bind]
  rw [outcome] at h
  rw [h]
  exact congrArg (fun p : Unit × World => ((.error f, p.2) : Except Failure α × World))
    (f.release_run w')

theorem exists_conclusion {task : Task (StateM World) α} {r : Except Failure α}
    (h : (conclusion task w).1 = r) : ∃ w', conclusion task w = (r, w') :=
  ⟨(conclusion task w).2, Prod.ext h rfl⟩

theorem outcome_bind (task : Task (StateM World) α) (f : α → Task (StateM World) β) (w : World) :
    outcome (task >>= f) w =
      match outcome task w with
      | (.ok a, w') => outcome (f a) w'
      | (.error e, w') => (.error e, w') := by
  simp only [outcome]
  rw [ExceptT.run_bind, StateT.run_bind]
  rcases (StateT.run (ExceptT.run task) w : Except Failure α × World) with ⟨r, w'⟩
  cases r <;> rfl

theorem outcome_throw (f : Failure) (w : World) :
    outcome (throw f : Task (StateM World) α) w = (.error f, w) := rfl

theorem outcome_lift (action : StateM World α) (w : World) :
    outcome (ExceptT.lift action) w = (.ok (action.run w).1, (action.run w).2) := rfl

/-! Each operation of the host under a task. -/

theorem outcome_read (path : Path) (w : World) :
    outcome (Host.read path) w = (.ok (w.files.read w.working path), w) :=
  outcome_lift (Host.read path) w

theorem outcome_create (directory : Path) (w : World) :
    outcome (Host.create directory) w = (.ok (w.create directory).1, (w.create directory).2) :=
  outcome_lift (Host.create directory) w

theorem outcome_write (t : Temporary) (contents : String) (w : World) :
    outcome (Host.write t contents) w = (.ok (w.write t contents).1, (w.write t contents).2) :=
  outcome_lift (Host.write t contents) w

theorem outcome_move (t : Temporary) (path : Path) (w : World) :
    outcome (Host.move t path) w = (.ok (w.move t path).1, (w.move t path).2) :=
  outcome_lift (Host.move t path) w

theorem outcome_remove (t : Temporary) (w : World) :
    outcome (Host.remove t) w = (.ok (), w.remove t) :=
  outcome_lift (Host.remove t) w

theorem outcome_print (text : String) (w : World) :
    outcome (Host.print text) w = (.ok (w.print text).1, (w.print text).2) :=
  outcome_lift (Host.print text) w

theorem outcome_report (r : Log.Record) (w : World) :
    outcome (Host.report r) w = (.ok (), w.report r) :=
  outcome_lift (Host.report r) w

end Task

/-! ## Worlds that are alike -/

namespace World

/-- The worlds have the same files, and files can be as large in both. -/
structure SameFiles (w w' : World) : Prop where
  files : w'.files = w.files
  working : w'.working = w.working
  maxSize : w'.maxSize = w.maxSize

/-- The worlds have the same directories and the same files that refuse to be replaced, and files can
be as large in both. -/
structure SameFixtures (w w' : World) : Prop where
  fixtures : w.files.SameFixtures w'.files
  working : w'.working = w.working
  maxSize : w'.maxSize = w.maxSize

theorem SameFiles.refl (w : World) : w.SameFiles w := ⟨rfl, rfl, rfl⟩

theorem SameFiles.trans {w'' : World} (h : w.SameFiles w') (h' : w'.SameFiles w'') :
    w.SameFiles w'' :=
  ⟨h'.files.trans h.files, h'.working.trans h.working, h'.maxSize.trans h.maxSize⟩

theorem SameFiles.sameFixtures (h : w.SameFiles w') : w.SameFixtures w' :=
  ⟨h.files ▸ .refl w.files, h.working, h.maxSize⟩

theorem SameFixtures.trans {w'' : World} (h : w.SameFixtures w') (h' : w'.SameFixtures w'') :
    w.SameFixtures w'' :=
  ⟨h.fixtures.trans h'.fixtures, h'.working.trans h.working, h'.maxSize.trans h.maxSize⟩

theorem SameFixtures.locate_eq_ok_iff (h : w.SameFixtures w') :
    w.files.locate w.working path = .ok l ↔ w'.files.locate w'.working path = .ok l := by
  rw [h.working]
  exact h.fixtures.locate_eq_ok_iff

theorem sameFiles_report (w : World) (r : Log.Record) : w.SameFiles (w.report r) := ⟨rfl, rfl, rfl⟩

theorem sameFiles_print (w : World) (text : String) : w.SameFiles (w.print text).2 := by
  rw [print]
  cases w.outputFault <;> exact ⟨rfl, rfl, rfl⟩

/-- The world with a text in the file at a location. -/
def withFile (w : World) (l : Location) (contents : String) : World :=
  { w with files := w.files.insert l (.file contents.toByteArray) }

theorem SameFiles.withFile (h : w.SameFiles w') (l : Location) (contents : String) :
    (w.withFile l contents).SameFiles (w'.withFile l contents) :=
  ⟨by rw [World.withFile, World.withFile, h.files], h.working, h.maxSize⟩

theorem sameFixtures_withFile (h : w.files.IsOpen l) (contents : String) :
    w.SameFixtures (w.withFile l contents) :=
  ⟨.insert_file h _, rfl, rfl⟩

theorem withFile_withFile (w : World) (l : Location) (contents contents' : String) :
    (w.withFile l contents).withFile l contents' = w.withFile l contents' := by
  simp only [withFile, Tree.insert_insert]

theorem remove_withFile_of_free {t : Temporary} (h : w.files.node? t.location = none) :
    (w.withFile t.location contents).remove t = w := by
  simp only [remove, withFile, Tree.erase_insert, Tree.erase_of_free h]

theorem SameFiles.remove (h : w.SameFiles w') (t : Temporary) :
    (w.remove t).SameFiles (w'.remove t) :=
  ⟨by rw [World.remove, World.remove, h.files], h.working, h.maxSize⟩

/-! ## Replacements -/

/-- The text can be put under the path: a temporary file can be created beside it, a file can have the
text, and the path is a possible target. -/
structure Accepts (w : World) (path : Path) (contents : String) : Prop where
  directory : ∃ l, w.locateTemporary path.directory = .ok l
  fits : w.fits contents = true
  target : ∃ l, w.files.locateTarget w.working path = .ok l

/-- The text gets as far as a temporary file at the location: this can be created and written, but the
path is no possible target. -/
structure Strands (w : World) (path : Path) (contents : String) (l : Location) : Prop where
  located : w.locateTemporary path.directory = .ok l
  fits : w.fits contents = true
  refused : ∀ target, w.files.locateTarget w.working path ≠ .ok target

theorem Accepts.not_strands (h : w.Accepts path contents) : ¬ w.Strands path contents l := by
  obtain ⟨target, htarget⟩ := h.target
  exact fun hs => hs.refused target htarget

theorem fits_congr (h : w'.maxSize = w.maxSize) (contents : String) :
    w'.fits contents = w.fits contents := by
  rw [fits, fits, h]

theorem SameFixtures.exists_locateTemporary_iff (h : w.SameFixtures w') :
    (∃ l, w.locateTemporary path = .ok l) ↔ ∃ l, w'.locateTemporary path = .ok l := by
  have hworking : w'.workingPath = w.workingPath := by rw [workingPath, workingPath, h.working]
  have htemporary :
      (∃ l, w.files.locateTemporary [] (w.workingPath.join path) = .ok l) ↔
        ∃ l, w'.files.locateTemporary [] (w.workingPath.join path) = .ok l :=
    h.fixtures.exists_locateTemporary_iff
  simp only [locateTemporary, temporaryPath, bind_eq_ok_iff, hworking]
  constructor
  · rintro ⟨l, u, hcheck, hl⟩
    obtain ⟨l', hl'⟩ := htemporary.mp ⟨l, hl⟩
    exact ⟨l', u, hcheck, hl'⟩
  · rintro ⟨l, u, hcheck, hl⟩
    obtain ⟨l', hl'⟩ := htemporary.mpr ⟨l, hl⟩
    exact ⟨l', u, hcheck, hl'⟩

/-- What cannot be replaced decides what can be put where. -/
theorem SameFixtures.accepts_iff (h : w.SameFixtures w') :
    w.Accepts path contents ↔ w'.Accepts path contents := by
  have hfits := fits_congr h.maxSize contents
  have htarget : ∀ l, w.files.locateTarget w.working path = .ok l ↔
      w'.files.locateTarget w'.working path = .ok l := by
    intro l
    rw [h.working]
    exact h.fixtures.locateTarget_eq_ok_iff
  constructor
  · rintro ⟨hdirectory, hf, l, hl⟩
    exact ⟨h.exists_locateTemporary_iff.mp hdirectory, hfits.trans hf, l, (htarget l).mp hl⟩
  · rintro ⟨hdirectory, hf, l, hl⟩
    exact ⟨h.exists_locateTemporary_iff.mpr hdirectory, hfits.symm.trans hf, l, (htarget l).mpr hl⟩

theorem SameFiles.locateTemporary_eq (h : w.SameFiles w') (directory : Path) :
    w'.locateTemporary directory = w.locateTemporary directory := by
  simp only [locateTemporary, temporaryPath, workingPath, h.files, h.working]

theorem SameFiles.strands_iff (h : w.SameFiles w') :
    w.Strands path contents l ↔ w'.Strands path contents l := by
  have hlocated := h.locateTemporary_eq path.directory
  have hfits := fits_congr h.maxSize contents
  have htarget : w'.files.locateTarget w'.working path = w.files.locateTarget w.working path := by
    rw [h.files, h.working]
  constructor
  · rintro ⟨hl, hf, hrefused⟩
    exact ⟨hlocated.trans hl, hfits.trans hf, htarget ▸ hrefused⟩
  · rintro ⟨hl, hf, hrefused⟩
    exact ⟨hlocated.symm.trans hl, hfits.symm.trans hf, htarget ▸ hrefused⟩

/-- What can become of a world when a text is put under a path, and what is answered if that is done. -/
inductive Replacement (w : World) (path : Path) (contents : String) (a : α) :
    Except Failure α → World → Prop where
  | done {target : Location} {w' : World} (accepted : w.Accepts path contents)
      (located : w.files.locateTarget w.working path = .ok target)
      (same : (w.withFile target contents).SameFiles w') :
      Replacement w path contents a (.ok a) w'
  | refused {f : Failure} {w' : World} (refused : ¬ w.Accepts path contents)
      (unstranded : ∀ l, ¬ w.Strands path contents l) (nothing : f.leftover? = none)
      (same : w.SameFiles w') : Replacement w path contents a (.error f) w'
  | stranded {fault : Files.Fault} {t : Temporary} {w' : World}
      (strands : w.Strands path contents t.location)
      (same : (w.withFile t.location contents).SameFiles w') :
      Replacement w path contents a (.error (.unpublished path fault t)) w'

theorem free_of_locateTemporary (h : w.locateTemporary path = .ok l) :
    w.files.node? l = none := by
  obtain ⟨-, -, h⟩ := bind_eq_ok_iff.mp h
  exact Tree.node?_of_locateTemporary h

theorem Strands.free (h : w.Strands path contents l) : w.files.node? l = none :=
  free_of_locateTemporary h.located

theorem create_of_ok (h : w.locateTemporary path = .ok l) :
    ∃ t, t.location = l ∧ w.create path = (.ok t, w.withFile l "") := by
  have hempty : "".toByteArray = ByteArray.empty := String.toByteArray_empty
  unfold create
  rw [h, withFile, hempty]
  exact ⟨⟨_, l⟩, rfl, rfl⟩

theorem create_of_error {fault : Files.Fault} (h : w.locateTemporary path = .error fault) :
    ∃ file, w.create path = (.error (fault, file), w) := by
  unfold create
  rw [h]
  exact ⟨_, rfl⟩

theorem write_of_fits {t : Temporary} (h : w.fits contents = true) :
    w.write t contents = (.ok (), w.withFile t.location contents) := by
  rw [write, if_pos h]
  rfl

theorem write_of_not_fits {t : Temporary} (h : ¬ w.fits contents = true) :
    w.write t contents = (.error .tooLarge, w) := by
  rw [write, if_neg h]

theorem move_of_error {t : Temporary} {fault : Files.Fault}
    (h : w.files.locateTarget w.working path = .error fault) :
    w.move t path = (.error fault, w) := by
  rw [move, h]

theorem move_withFile_of_free {t : Temporary} (hfree : w.files.node? t.location = none)
    (h : (w.withFile t.location contents).files.locateTarget w.working path = .ok l) :
    (w.withFile t.location contents).move t path = (.ok (), w.withFile l contents) := by
  have hworking : (w.withFile t.location contents).working = w.working := rfl
  rw [move, hworking, h]
  simp only [withFile, Tree.move_insert_of_free hfree]

/-- A replacement is done, refused without a trace, or refused at the move. -/
theorem replacement_replaceFile (w : World) (path : Path) (contents : String) :
    ∃ r w', Task.outcome (replaceFile path contents) w = (r, w') ∧
      w.Replacement path contents () r w' := by
  rw [replaceFile, Task.outcome_bind, Task.outcome_create]
  cases hl : w.locateTemporary path.directory with
  | error fault =>
      obtain ⟨file, hcreate⟩ := create_of_error hl
      rw [hcreate]
      refine ⟨_, _, rfl, .refused (fun h => ?_) (fun l h => ?_) rfl (.refl _)⟩
      · obtain ⟨l, h⟩ := h.directory
        cases hl.symm.trans h
      · cases hl.symm.trans h.located
  | ok l =>
      obtain ⟨t, rfl, hcreate⟩ := create_of_ok hl
      have hfree : w.files.node? t.location = none := free_of_locateTemporary hl
      rw [hcreate]
      dsimp only
      rw [Task.outcome_bind, Task.outcome_write]
      -- A text that is too large is removed at once with its temporary file. When the file is written,
      -- only the failure that owns it can remove it.
      by_cases hfits : w.fits contents = true
      · rw [write_of_fits (w := w.withFile t.location "") hfits, withFile_withFile]
        dsimp only
        rw [Task.outcome_bind, Task.outcome_move]
        have hfixtures : w.files.SameFixtures (w.withFile t.location contents).files :=
          .insert_file (Tree.isOpen_of_free hfree) _
        cases hmove : (w.withFile t.location contents).files.locateTarget w.working path with
        | error fault =>
            rw [move_of_error hmove]
            refine ⟨_, _, rfl, .stranded ⟨hl, hfits, fun target h => ?_⟩ (.refl _)⟩
            cases hmove.symm.trans (hfixtures.locateTarget_eq_ok_iff.mp h)
        | ok target =>
            have htarget := hfixtures.locateTarget_eq_ok_iff.mpr hmove
            rw [move_withFile_of_free hfree hmove]
            exact ⟨_, _, rfl, .done ⟨⟨_, hl⟩, hfits, ⟨target, htarget⟩⟩ htarget (.refl _)⟩
      · rw [write_of_not_fits (w := w.withFile t.location "") hfits]
        dsimp only
        rw [Task.outcome_bind, Task.outcome_remove]
        dsimp only
        rw [Task.outcome_throw, remove_withFile_of_free hfree]
        exact ⟨_, _, rfl,
          .refused (fun h => hfits h.fits) (fun _ h => hfits h.fits) rfl (.refl _)⟩

/-- What is only reported after a replacement does not count. -/
theorem replacement_replaceFile_bind {next : Unit → Task (StateM World) α} {a : α}
    (hnext : ∀ w, ∃ w', Task.outcome (next ()) w = (.ok a, w') ∧ w.SameFiles w') (w : World)
    (path : Path) (contents : String) :
    ∃ r w', Task.outcome (replaceFile path contents >>= next) w = (r, w') ∧
      w.Replacement path contents a r w' := by
  obtain ⟨r, w', houtcome, hr⟩ := replacement_replaceFile w path contents
  rw [Task.outcome_bind, houtcome]
  cases hr with
  | done accepted located same =>
      obtain ⟨w'', hw'', hsame⟩ := hnext w'
      exact ⟨_, _, hw'', .done accepted located (same.trans hsame)⟩
  | refused refused unstranded nothing same =>
      exact ⟨_, _, rfl, .refused refused unstranded nothing same⟩
  | stranded strands same => exact ⟨_, _, rfl, .stranded strands same⟩

theorem replacement_writeFile (w : World) (path : Path) (contents : String) :
    ∃ r w', Task.outcome (writeFile path contents) w = (r, w') ∧
      w.Replacement path contents .written r w' :=
  replacement_replaceFile_bind (fun w => ⟨_, rfl, w.sameFiles_report _⟩) w path contents

theorem replacement_writeDepfile (w : World) (depfile target : Path) (dependencies : List Path)
    (a : α) :
    ∃ r w', Task.outcome (writeDepfile depfile target dependencies >>= fun _ => pure a) w = (r, w') ∧
      w.Replacement depfile (Depfile.rule target dependencies) a r w' := by
  rw [writeDepfile, bind_assoc]
  exact replacement_replaceFile_bind (fun w => ⟨_, rfl, w.sameFiles_report _⟩) w depfile _

/-! ## What a replacement leaves -/

theorem released_of_nothing (h : f.leftover? = none) : w.released f = w := by
  rw [released, h]

theorem released_of_stranded {fault : Files.Fault} {t : Temporary}
    (hfree : w.files.node? t.location = none)
    (hsame : (w.withFile t.location contents).SameFiles w') :
    w.SameFiles (w'.released (.unpublished path fault t)) := by
  have hremove := hsame.remove t
  rw [remove_withFile_of_free hfree] at hremove
  exact hremove

/-- A replacement that was not done leaves nothing, once its failure is dropped. -/
theorem Replacement.sameFiles_released {a : α} (h : w.Replacement path contents a (.error f) w') :
    w.SameFiles (w'.released f) := by
  cases h with
  | refused refused unstranded nothing same =>
      rw [released_of_nothing nothing]
      exact same
  | stranded strands same => exact released_of_stranded strands.free same

/-- The second world has the text, for everyone to read, at the location that the path leads to, and is
otherwise like the first. -/
structure Put (w w' : World) (path : Path) (contents : String) (l : Location) : Prop where
  located : w.files.locate w.working path = .ok l
  held : ∃ r : Files.FileRefusals, r.read = none ∧
    w'.files.node? l = some (.file contents.toByteArray r)
  frame : ∀ k, k ≠ l → w'.files.node? k = w.files.node? k
  fixtures : w.SameFixtures w'

theorem node?_withFile_self (hl : l ≠ []) (contents : String) :
    (w.withFile l contents).files.node? l = some (.file contents.toByteArray) :=
  Tree.node?_insert_self hl

theorem node?_withFile_of_ne {k : Location} (hl : l ≠ []) (hk : k ≠ l) (contents : String) :
    (w.withFile l contents).files.node? k = w.files.node? k :=
  Tree.node?_insert_of_ne hl hk

theorem put_withFile (htarget : w.files.locateTarget w.working path = .ok l)
    (hsame : (w.withFile l contents).SameFiles w') : w.Put w' path contents l := by
  obtain ⟨hlocate, hopen⟩ := Tree.locate_of_locateTarget htarget
  refine ⟨hlocate, ⟨{}, rfl, ?_⟩, fun k hk => ?_, ?_⟩
  · rw [hsame.files, node?_withFile_self hopen.ne_nil]
  · rw [hsame.files, node?_withFile_of_ne hopen.ne_nil hk]
  · exact (sameFixtures_withFile hopen contents).trans hsame.sameFixtures

theorem Replacement.not_accepts {a : α} (h : w.Replacement path contents a (.error f) w') :
    ¬ w.Accepts path contents := by
  cases h with
  | refused refused unstranded nothing same => exact refused
  | stranded strands same => exact fun h => h.not_strands strands

theorem Replacement.accepts {a b : α} (h : w.Replacement path contents a (.ok b) w') :
    w.Accepts path contents := by
  cases h with
  | done accepted located same => exact accepted

/-- A replacement that was done puts the text where the path leads. -/
theorem Replacement.put {a b : α} (h : w.Replacement path contents a (.ok b) w') :
    ∃ l, w.Put w' path contents l := by
  cases h with
  | done accepted located same => exact ⟨_, put_withFile located same⟩

end World

end AttributeTables
