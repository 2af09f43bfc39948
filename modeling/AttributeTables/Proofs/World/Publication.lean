import AttributeTables.Proofs.World.Replacement

/-!
# Published texts

Depending on the mode, a text is written, or compared with what the file holds, or both. Whatever is
refused, the files stay as they are; only a refused move leaves a temporary file.
-/

namespace AttributeTables

open Files (Location Tree)

variable {w w' : World} {path : Path} {contents text : String} {mode : WriteMode} {l : Location}

theorem fromUTF8?_eq_some_iff {bytes : ByteArray} :
    String.fromUTF8? bytes = some text ↔ bytes = text.toByteArray := by
  rw [String.fromUTF8?]
  split_ifs with hvalid
  · constructor
    · rintro h
      cases h
      rfl
    · rintro rfl
      rfl
  · refine iff_of_false nofun ?_
    rintro rfl
    exact hvalid text.isValidUTF8

namespace World

/-! ## Texts in files -/

/-- The text in the file under a path. -/
def readText (w : World) (path : Path) : Except Files.Fault String :=
  match w.files.read w.working path with
  | .error fault => .error fault
  | .ok contents =>
    match String.fromUTF8? contents with
    | some text => .ok text
    | none => .error .notText

theorem readText_eq_ok_iff_read :
    w.readText path = .ok text ↔ w.files.read w.working path = .ok text.toByteArray := by
  rw [World.readText]
  cases w.files.read w.working path with
  | error fault => simp
  | ok bytes =>
      dsimp only
      rw [Except.ok.injEq, ← fromUTF8?_eq_some_iff]
      cases String.fromUTF8? bytes <;> simp

theorem readText_eq_ok_iff : w.readText path = .ok text ↔
    ∃ l r, w.files.locate w.working path = .ok l ∧
      w.files.node? l = some (.file text.toByteArray r) ∧ r.read = none := by
  rw [readText_eq_ok_iff_read, Tree.read_eq_ok_iff]

theorem SameFiles.readText_eq (h : w.SameFiles w') (path : Path) :
    w'.readText path = w.readText path := by
  rw [World.readText, World.readText, h.files, h.working]

theorem outcome_readText (path : Path) (w : World) :
    Task.outcome (Host.readText path) w = (.ok (w.readText path), w) := by
  rw [Host.readText, Task.outcome_bind, Task.outcome_read, World.readText]
  dsimp only
  cases w.files.read w.working path with
  | error fault => rfl
  | ok bytes =>
      dsimp only
      cases String.fromUTF8? bytes <;> rfl

/-! ## Publications -/

/-- In the mode, the text is to be written to the path. -/
def Writes (w : World) (path : Path) (contents : String) : WriteMode → Prop
  | .always => True
  | .ifChanged => w.readText path = .error .notFound ∨ ∃ old, w.readText path = .ok old ∧ old ≠ contents
  | .check => False

/-- In the mode, the text need not be written since it is there already. -/
def Holds (w : World) (path : Path) (contents : String) (mode : WriteMode) : Prop :=
  mode ≠ .always ∧ w.readText path = .ok contents

/-- What can become of a world when a text is published under a path. -/
inductive Publication (w : World) (path : Path) (contents : String) (mode : WriteMode) :
    Except Failure Published → World → Prop where
  | unchanged {w' : World} (holds : w.Holds path contents mode) (same : w.SameFiles w') :
      Publication w path contents mode (.ok .unchanged) w'
  | written {target : Location} {w' : World} (writes : w.Writes path contents mode)
      (accepted : w.Accepts path contents)
      (located : w.files.locateTarget w.working path = .ok target)
      (same : (w.withFile target contents).SameFiles w') :
      Publication w path contents mode (.ok .written) w'
  | refused {f : Failure} {w' : World} (holds : ¬ w.Holds path contents mode)
      (refused : ¬ (w.Writes path contents mode ∧ w.Accepts path contents))
      (unstranded : ∀ l, ¬ (w.Writes path contents mode ∧ w.Strands path contents l))
      (nothing : f.leftover? = none) (same : w.SameFiles w') :
      Publication w path contents mode (.error f) w'
  | stranded {fault : Files.Fault} {t : Temporary} {w' : World}
      (writes : w.Writes path contents mode) (strands : w.Strands path contents t.location)
      (same : (w.withFile t.location contents).SameFiles w') :
      Publication w path contents mode (.error (.unpublished path fault t)) w'

theorem SameFiles.accepts_iff (h : w.SameFiles w') :
    w.Accepts path contents ↔ w'.Accepts path contents :=
  h.sameFixtures.accepts_iff

theorem SameFiles.writes_iff (h : w.SameFiles w') :
    w.Writes path contents mode ↔ w'.Writes path contents mode := by
  cases mode with
  | always | check => exact Iff.rfl
  | ifChanged => simp only [Writes, h.readText_eq]

theorem SameFiles.holds_iff (h : w.SameFiles w') :
    w.Holds path contents mode ↔ w'.Holds path contents mode := by
  simp only [Holds, h.readText_eq]

theorem SameFiles.locateTarget_eq (h : w.SameFiles w') (path : Path) :
    w'.files.locateTarget w'.working path = w.files.locateTarget w.working path := by
  rw [h.files, h.working]

/-- Where a world has the same files, a publication comes to the same. -/
theorem Publication.of_sameFiles {r : Except Failure Published} {w'' : World} (h : w.SameFiles w')
    (hp : w'.Publication path contents mode r w'') : w.Publication path contents mode r w'' := by
  cases hp with
  | unchanged holds same => exact .unchanged (h.holds_iff.mpr holds) (h.trans same)
  | written writes accepted located same =>
      exact .written (h.writes_iff.mpr writes) (h.accepts_iff.mpr accepted)
        ((h.locateTarget_eq path).symm.trans located) ((h.withFile _ _).trans same)
  | refused holds refused unstranded nothing same =>
      refine .refused (mt h.holds_iff.mp holds) (fun hw => refused ?_)
        (fun l hw => unstranded l ?_) nothing (h.trans same)
      · exact ⟨h.writes_iff.mp hw.1, h.accepts_iff.mp hw.2⟩
      · exact ⟨h.writes_iff.mp hw.1, h.strands_iff.mp hw.2⟩
  | stranded writes strands same =>
      exact .stranded (h.writes_iff.mpr writes) (h.strands_iff.mpr strands)
        ((h.withFile _ _).trans same)

theorem Writes.not_holds (h : w.Writes path contents mode) : ¬ w.Holds path contents mode := by
  rintro ⟨hmode, htext⟩
  cases mode with
  | always => exact hmode rfl
  | ifChanged =>
      rcases h with h | ⟨old, h, hne⟩
      · cases h.symm.trans htext
      · exact hne (Except.ok.inj (h.symm.trans htext))
  | check => exact h

theorem outcome_existingText (path : Path) (w : World) :
    Task.outcome (existingText path) w =
      match w.readText path with
      | .ok text => (.ok (some text), w)
      | .error .notFound => (.ok none, w)
      | .error fault => (.error (.unreadable path fault), w) := by
  rw [existingText, Task.outcome_bind, outcome_readText]
  dsimp only
  cases w.readText path with
  | ok text => rfl
  | error fault => cases fault <;> rfl

theorem publishFile_of_ne_always (h : mode ≠ .always) :
    (publishFile path contents mode : Task (StateM World) Published) = (do
      let existing ← existingText path
      if existing == some contents then
        Host.report ⟨.debug, publicationTarget, "'" ++ path.text ++ "' is up to date"⟩
        return .unchanged
      else if mode == .check then throw (.outdated path)
      else writeFile path contents) := by
  rw [publishFile, if_neg (by simpa using h)]

theorem outcome_publishFile_of_holds (h : w.Holds path contents mode) :
    ∃ w', Task.outcome (publishFile path contents mode) w = (.ok .unchanged, w') ∧
      w.SameFiles w' := by
  obtain ⟨hmode, htext⟩ := h
  rw [publishFile_of_ne_always hmode, Task.outcome_bind, outcome_existingText, htext]
  dsimp only
  rw [if_pos (beq_self_eq_true _)]
  exact ⟨_, rfl, w.sameFiles_report _⟩

theorem outcome_publishFile_of_writes (h : w.Writes path contents mode) :
    Task.outcome (publishFile path contents mode) w = Task.outcome (writeFile path contents) w := by
  cases mode with
  | always => rfl
  | ifChanged =>
      rw [publishFile_of_ne_always (by decide), Task.outcome_bind, outcome_existingText]
      rcases h with htext | ⟨old, htext, hne⟩
      · rw [htext]
        rfl
      · rw [htext]
        dsimp only
        rw [if_neg (by simpa using hne)]
        rfl
  | check => exact absurd h id

theorem outcome_publishFile_of_neither (hholds : ¬ w.Holds path contents mode)
    (hwrites : ¬ w.Writes path contents mode) :
    ∃ f, Task.outcome (publishFile path contents mode) w = (.error f, w) ∧ f.leftover? = none := by
  have hmode : mode ≠ .always := by
    rintro rfl
    exact hwrites trivial
  rw [publishFile_of_ne_always hmode, Task.outcome_bind, outcome_existingText]
  cases htext : w.readText path with
  | ok old =>
      have hold : old ≠ contents := fun h => hholds ⟨hmode, h ▸ htext⟩
      have hcheck : mode = .check := by
        cases mode with
        | always => exact absurd rfl hmode
        | ifChanged => exact absurd (.inr ⟨old, htext, hold⟩) hwrites
        | check => rfl
      dsimp only
      rw [if_neg (by simpa using hold), if_pos (by simpa using hcheck)]
      exact ⟨_, rfl, rfl⟩
  | error fault =>
      by_cases hfault : fault = .notFound
      · have hcheck : mode = .check := by
          cases mode with
          | always => exact absurd rfl hmode
          | ifChanged => exact absurd (.inl (hfault ▸ htext)) hwrites
          | check => rfl
        subst hfault hcheck
        exact ⟨_, rfl, rfl⟩
      · refine ⟨.unreadable path fault, ?_, rfl⟩
        cases fault with
        | notFound => exact absurd rfl hfault
        | _ => rfl

theorem publication_publishFile (w : World) (path : Path) (contents : String) (mode : WriteMode) :
    ∃ r w', Task.outcome (publishFile path contents mode) w = (r, w') ∧
      w.Publication path contents mode r w' := by
  by_cases hholds : w.Holds path contents mode
  · obtain ⟨w', houtcome, hsame⟩ := outcome_publishFile_of_holds hholds
    exact ⟨_, _, houtcome, .unchanged hholds hsame⟩
  by_cases hwrites : w.Writes path contents mode
  · obtain ⟨r, w', houtcome, hr⟩ := replacement_writeFile w path contents
    rw [outcome_publishFile_of_writes hwrites, houtcome]
    cases hr with
    | done accepted located same => exact ⟨_, _, rfl, .written hwrites accepted located same⟩
    | refused refused unstranded nothing same =>
        exact ⟨_, _, rfl,
          .refused hholds (refused ·.2) (fun l hw => unstranded l hw.2) nothing same⟩
    | stranded strands same => exact ⟨_, _, rfl, .stranded hwrites strands same⟩
  · obtain ⟨f, houtcome, hnothing⟩ := outcome_publishFile_of_neither hholds hwrites
    exact ⟨_, _, houtcome,
      .refused hholds (hwrites ·.1) (fun _ hw => hwrites hw.1) hnothing (.refl w)⟩

/-! ## What a publication leaves -/

theorem Publication.of_holds {r : Except Failure Published}
    (h : w.Publication path contents mode r w') (hholds : w.Holds path contents mode) :
    r = .ok .unchanged ∧ w.SameFiles w' := by
  cases h with
  | unchanged holds same => exact ⟨rfl, same⟩
  | written writes accepted located same => exact absurd hholds writes.not_holds
  | refused holds refused unstranded nothing same => exact absurd hholds holds
  | stranded writes strands same => exact absurd hholds writes.not_holds

theorem Publication.of_writes {r : Except Failure Published}
    (h : w.Publication path contents mode r w') (hwrites : w.Writes path contents mode)
    (haccepts : w.Accepts path contents) :
    ∃ target, r = .ok .written ∧ w.files.locateTarget w.working path = .ok target ∧
      (w.withFile target contents).SameFiles w' := by
  cases h with
  | unchanged holds same => exact absurd holds hwrites.not_holds
  | written writes accepted located same => exact ⟨_, rfl, located, same⟩
  | refused holds refused unstranded nothing same => exact absurd ⟨hwrites, haccepts⟩ refused
  | stranded writes strands same => exact absurd strands haccepts.not_strands

/-- The world in which the text was published under the path: it held the text already, or has it
now. -/
inductive Publishes (w : World) (path : Path) (contents : String) (mode : WriteMode) : World → Prop where
  | kept (holds : w.Holds path contents mode) : Publishes w path contents mode w
  | replaced {target : Location} (writes : w.Writes path contents mode)
      (accepted : w.Accepts path contents)
      (located : w.files.locateTarget w.working path = .ok target) :
      Publishes w path contents mode (w.withFile target contents)

theorem Publication.exists_publishes {p : Published}
    (h : w.Publication path contents mode (.ok p) w') :
    ∃ w₁, w.Publishes path contents mode w₁ := by
  cases h with
  | unchanged holds same => exact ⟨w, .kept holds⟩
  | written writes accepted located same => exact ⟨_, .replaced writes accepted located⟩

/-- A text that can be published is published. -/
theorem Publication.of_publishes {r : Except Failure Published} {w₁ : World}
    (h : w.Publication path contents mode r w') (hp : w.Publishes path contents mode w₁) :
    (∃ p, r = .ok p) ∧ w₁.SameFiles w' := by
  cases hp with
  | kept holds =>
      obtain ⟨rfl, hsame⟩ := h.of_holds holds
      exact ⟨⟨_, rfl⟩, hsame⟩
  | replaced writes accepted located =>
      obtain ⟨target, rfl, hlocated, hsame⟩ := h.of_writes writes accepted
      cases located.symm.trans hlocated
      exact ⟨⟨_, rfl⟩, hsame⟩

/-- A publication that was refused leaves nothing, once its failure is dropped. -/
theorem Publication.sameFiles_released {f : Failure}
    (h : w.Publication path contents mode (.error f) w') : w.SameFiles (w'.released f) := by
  cases h with
  | refused holds refused unstranded nothing same =>
      rw [released_of_nothing nothing]
      exact same
  | stranded writes strands same => exact released_of_stranded strands.free same

theorem Put.readText (h : w.Put w' path contents l) : w'.readText path = .ok contents := by
  obtain ⟨r, hread, hnode⟩ := h.held
  exact readText_eq_ok_iff.mpr ⟨l, r, h.fixtures.locate_eq_ok_iff.mp h.located, hnode, hread⟩

/-- A text that is put again where it was leaves everything as it was: the file that made way for it
refused neither to be read nor to be replaced, like the new one. -/
theorem node?_withFile_of_readText (htarget : w.files.locateTarget w.working path = .ok l)
    (htext : w.readText path = .ok contents) (k : Location) :
    (w.withFile l contents).files.node? k = w.files.node? k := by
  obtain ⟨hlocate, hopen⟩ := Tree.locate_of_locateTarget htarget
  obtain ⟨j, ⟨read, replace⟩, hlocate', hnode, hread⟩ := readText_eq_ok_iff.mp htext
  cases hlocate.symm.trans hlocate'
  by_cases hk : k = l
  · have hreplace : replace = none := by
      rw [Tree.IsOpen, hnode] at hopen
      exact hopen
    rw [hk, node?_withFile_self hopen.ne_nil, hnode]
    cases hread
    cases hreplace
    rfl
  · exact node?_withFile_of_ne hopen.ne_nil hk contents

theorem Holds.put (h : w.Holds path contents mode) (hsame : w.SameFiles w') :
    ∃ l, w.Put w' path contents l := by
  obtain ⟨l, r, hlocate, hnode, hread⟩ := readText_eq_ok_iff.mp h.2
  exact ⟨l, hlocate, ⟨r, hread, hsame.files ▸ hnode⟩, fun k _ => by rw [hsame.files],
    hsame.sameFixtures⟩

/-- A publication that was not refused puts the text where the path leads. -/
theorem Publication.put {p : Published} (h : w.Publication path contents mode (.ok p) w') :
    ∃ l, w.Put w' path contents l := by
  cases h with
  | unchanged holds same => exact holds.put same
  | written writes accepted located same => exact ⟨_, put_withFile located same⟩

end World

end AttributeTables
