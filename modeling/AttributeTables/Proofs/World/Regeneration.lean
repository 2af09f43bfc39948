import AttributeTables.Proofs.World.Generation

/-!
# Repeated generations

What a generation has written is what a second one would write, so the second one has nothing to do.
For this the input, the output and the dependency file have to be different files: else the first
generation may change what the second one reads.
-/

namespace AttributeTables

open Files (Location Tree)

variable {w w' : World} {s : Settings} {path other : Path} {contents text : String} {mode : WriteMode}
  {output : Path} {p : Published} {l k : Location}

namespace World

/-! ## Different files -/

/-- The paths do not lead to the same location. -/
def Apart (w : World) (path other : Path) : Prop :=
  ∀ l, w.files.locate w.working path = .ok l → w.files.locate w.working other ≠ .ok l

theorem apart_of_ne (hpath : w.files.locate w.working path = .ok l)
    (hother : w.files.locate w.working other = .ok k) (hne : l ≠ k) : w.Apart path other := by
  intro j hj hj'
  cases hpath.symm.trans hj
  exact hne (Except.ok.inj (hj'.symm.trans hother))

theorem SameFixtures.apart (h : w.SameFixtures w') (hapart : w.Apart path other) :
    w'.Apart path other :=
  fun l hpath hother =>
    hapart l (h.locate_eq_ok_iff.mpr hpath) (h.locate_eq_ok_iff.mpr hother)

theorem Put.readText_of_apart (h : w.Put w' path contents l) (hapart : w.Apart other path)
    (htext : w.readText other = .ok text) : w'.readText other = .ok text := by
  obtain ⟨k, r, hlocate, hnode, hread⟩ := readText_eq_ok_iff.mp htext
  have hk : k ≠ l := by
    rintro rfl
    exact hapart k hlocate h.located
  exact readText_eq_ok_iff.mpr
    ⟨k, r, h.fixtures.locate_eq_ok_iff.mp hlocate, (h.frame k hk).trans hnode, hread⟩

theorem exists_source_of_tables (h : w.tables s = .ok text) :
    ∃ source, w.readText s.input = .ok source := by
  rw [tables, manifest] at h
  cases htext : w.readText s.input with
  | error fault =>
      rw [htext] at h
      cases h
  | ok source => exact ⟨source, rfl⟩

theorem Put.tables (h : w.Put w' path contents l) (hapart : w.Apart s.input path)
    (htables : w.tables s = .ok text) : w'.tables s = .ok text := by
  obtain ⟨source, hsource⟩ := exists_source_of_tables htables
  have hsame : w'.readText s.input = w.readText s.input :=
    (h.readText_of_apart hapart hsource).trans hsource.symm
  rw [tables_congr hsame, htables]

/-! ## Nothing to do -/

/-- The output and the dependency file are what a generation would write. -/
structure UpToDate (w : World) (s : Settings) (output : Path) (text : String) : Prop where
  tables : w.tables s = .ok text
  holds : w.readText output = .ok text
  ruled : ∀ depfile, s.depfile = some depfile →
    w.readText depfile = .ok (Depfile.rule output [s.input]) ∧
      w.Accepts depfile (Depfile.rule output [s.input])

theorem UpToDate.with_mode (h : w.UpToDate s output text) (mode : WriteMode) :
    w.UpToDate { s with mode } output text :=
  ⟨h.tables, h.holds, h.ruled⟩

/-- A generation that has nothing to do finds this out. -/
theorem UpToDate.conclusion (h : w.UpToDate s output text) (houtput : s.output = some output)
    (hmode : s.mode ≠ .always) :
    ∃ w', Task.conclusion (generateTables s) w = (.ok .unchanged, w') ∧
      ∀ l, w'.files.node? l = w.files.node? l := by
  have hholds : w.Holds output text s.mode := ⟨hmode, h.holds⟩
  obtain ⟨r, w', houtcome, hgeneration⟩ := generation_generateTables s w
  cases hgeneration.filing h.tables houtput with
  | unpublished publication =>
      obtain ⟨hr, -⟩ := publication.of_holds hholds
      cases hr
  | published unruled publication =>
      obtain ⟨hr, hsame⟩ := publication.of_holds hholds
      cases hr
      exact ⟨w', Task.conclusion_of_ok houtcome, fun l => by rw [hsame.files]⟩
  | @ruled depfile _ w₁ _ _ hdepfile mode publication replacement =>
      obtain ⟨hr, hsame⟩ := publication.of_holds hholds
      cases hr
      obtain ⟨hrule, haccepts⟩ := h.ruled depfile hdepfile
      cases replacement with
      | refused refused unstranded nothing same =>
          exact absurd (hsame.accepts_iff.mp haccepts) refused
      | stranded strands same =>
          exact absurd strands (hsame.accepts_iff.mp haccepts).not_strands
      | done accepted located same =>
          have hrule' : w₁.readText depfile = .ok (Depfile.rule output [s.input]) :=
            (hsame.readText_eq depfile).trans hrule
          refine ⟨w', Task.conclusion_of_ok houtcome, fun k => ?_⟩
          rw [same.files, node?_withFile_of_readText located hrule', hsame.files]

/-! ## After a generation -/

/-- After a generation the output and the dependency file are up to date, and only they have
changed. -/
theorem upToDate_of_conclusion (houtput : s.output = some output) (hmode : s.mode ≠ .check)
    (hinput : w.Apart s.input output)
    (hdepfile : ∀ depfile, s.depfile = some depfile →
      w.Apart s.input depfile ∧ w.Apart output depfile)
    (h : Task.conclusion (generateTables s) w = (.ok p, w')) :
    ∃ text, w.tables s = .ok text ∧ w'.UpToDate s output text ∧
      ∀ l, w.files.locate w.working output ≠ .ok l →
        (∀ depfile, s.depfile = some depfile → w.files.locate w.working depfile ≠ .ok l) →
        w'.files.node? l = w.files.node? l := by
  obtain ⟨r, w₁, houtcome, hgeneration⟩ := generation_generateTables s w
  cases r with
  | error e => cases (Task.conclusion_of_error houtcome).symm.trans h
  | ok p =>
      cases (Task.conclusion_of_ok houtcome).symm.trans h
      obtain ⟨text, tables⟩ := hgeneration.exists_text
      refine ⟨text, tables, ?_⟩
      cases hgeneration.filing tables houtput with
      | published unruled publication =>
          have hnone : s.depfile = none := unruled.resolve_right hmode
          obtain ⟨lo, hput⟩ := publication.put
          refine ⟨⟨hput.tables hinput tables, hput.readText, ?_⟩, fun l hlo _ => ?_⟩
          · intro depfile hsome
            cases hnone.symm.trans hsome
          · refine hput.frame l ?_
            rintro rfl
            exact hlo hput.located
      | @ruled depfile _ w₁ _ _ hdep mode publication replacement =>
          -- The dependency file is written in a world that has the output already. All paths lead there
          -- where they led before.
          obtain ⟨hinput', houtput'⟩ := hdepfile depfile hdep
          obtain ⟨lo, hput⟩ := publication.put
          obtain ⟨ld, hrule⟩ := replacement.put
          have hlocated : w.files.locate w.working depfile = .ok ld :=
            hput.fixtures.locate_eq_ok_iff.mpr hrule.located
          refine ⟨⟨?_, ?_, ?_⟩, fun l hlo hld => ?_⟩
          · exact hrule.tables (hput.fixtures.apart hinput') (hput.tables hinput tables)
          · exact hrule.readText_of_apart (hput.fixtures.apart houtput') hput.readText
          · intro depfile' hdep'
            cases hdep.symm.trans hdep'
            exact ⟨hrule.readText, hrule.fixtures.accepts_iff.mp replacement.accepts⟩
          · have hne : l ≠ lo := by
              rintro rfl
              exact hlo hput.located
            have hne' : l ≠ ld := by
              rintro rfl
              exact hld depfile hdep hlocated
            exact (hrule.frame l hne').trans (hput.frame l hne)

/-- After a generation the output holds the text of the tables and the dependency file its rule. No
other file has changed, and another generation that looks at the output first leaves everything as
it is. -/
theorem generateTables_then_unchanged (houtput : s.output = some output) (hmode : s.mode ≠ .check)
    (hinput : w.Apart s.input output)
    (hdepfile : ∀ depfile, s.depfile = some depfile →
      w.Apart s.input depfile ∧ w.Apart output depfile)
    (h : Task.conclusion (generateTables s) w = (.ok p, w')) :
    ∃ text, w.tables s = .ok text ∧
      w'.files.read w'.working output = .ok text.toByteArray ∧
      (∀ depfile, s.depfile = some depfile → w'.files.read w'.working depfile =
        .ok (Depfile.rule output [s.input]).toByteArray) ∧
      (∀ l, w.files.locate w.working output ≠ .ok l →
        (∀ depfile, s.depfile = some depfile → w.files.locate w.working depfile ≠ .ok l) →
        w'.files.node? l = w.files.node? l) ∧
      ∀ mode, mode ≠ .always →
        ∃ w'', Task.conclusion (generateTables { s with mode }) w' = (.ok .unchanged, w'') ∧
          ∀ l, w''.files.node? l = w'.files.node? l := by
  obtain ⟨text, htables, hupToDate, hframe⟩ :=
    upToDate_of_conclusion houtput hmode hinput hdepfile h
  refine ⟨text, htables, readText_eq_ok_iff_read.mp hupToDate.holds, ?_, hframe, ?_⟩
  · intro depfile hsome
    exact readText_eq_ok_iff_read.mp (hupToDate.ruled depfile hsome).1
  · intro mode hne
    exact (hupToDate.with_mode mode).conclusion houtput hne

/-- The output holds something else before, and there is no dependency file. -/
theorem generateTables_then_unchanged_stale :
    let w : World :=
      { files := ⟨[(["m.toml"], .file "".toByteArray), (["out.inc"], .file "previous\n".toByteArray)]⟩ }
    let s : Settings :=
      { input := ⟨"m.toml"⟩, output := some ⟨"out.inc"⟩, depfile := some ⟨"out.d"⟩
        mode := .ifChanged, emit := { sourceName := some "m.toml" } }
    ∃ w' w'' text, Task.conclusion (generateTables s) w = (.ok .written, w') ∧
      w.tables s = .ok text ∧ w'.files.read w'.working ⟨"out.inc"⟩ = .ok text.toByteArray ∧
      Task.conclusion (generateTables { s with mode := .check }) w' = (.ok .unchanged, w'') := by
  intro w s
  have hinput : w.files.locate w.working ⟨"m.toml"⟩ = .ok ["m.toml"] := rfl
  have houtput : w.files.locate w.working ⟨"out.inc"⟩ = .ok ["out.inc"] := rfl
  have hdepfile : w.files.locate w.working ⟨"out.d"⟩ = .ok ["out.d"] := rfl
  have hrun : (Task.conclusion (generateTables s) w).1.toOption = some .written := by
    decide +kernel
  rcases hconclusion : Task.conclusion (generateTables s) w with ⟨_ | p, w'⟩
  · rw [hconclusion] at hrun
    cases hrun
  · rw [hconclusion] at hrun
    cases hrun
    have hapart : ∀ depfile, s.depfile = some depfile →
        w.Apart s.input depfile ∧ w.Apart ⟨"out.inc"⟩ depfile := by
      rintro _ ⟨⟩
      exact ⟨apart_of_ne hinput hdepfile (by decide), apart_of_ne houtput hdepfile (by decide)⟩
    obtain ⟨text, htext, hread, -, -, hagain⟩ := generateTables_then_unchanged (s := s) rfl
      (by decide) (apart_of_ne hinput houtput (by decide)) hapart hconclusion
    obtain ⟨w'', hcheck, -⟩ := hagain .check (by decide)
    exact ⟨w', w'', text, rfl, htext, hread, hcheck⟩

end World

end AttributeTables
