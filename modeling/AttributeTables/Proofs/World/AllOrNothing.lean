import AttributeTables.Proofs.World.Generation

/-!
# Failed generations

A generation that fails leaves every file as it was, unless it has replaced the output already and
then cannot write the dependency file. The condition for this is exact.
-/

namespace AttributeTables

open Files (Location Tree)

variable {w w' : World} {s : Settings} {text : String} {f : Failure} {output depfile : Path}
  {target : Location}

/-- The node without what it refuses. -/
def Files.Node.bare : Files.Node → Files.Node
  | .file contents _ => .file contents
  | .directory _ => .directory

namespace World

/-- The generation replaces the output and then cannot write the dependency file. All of this can be
told from the world before it. -/
structure HalfDone (w : World) (s : Settings) (text : String) (output depfile : Path) : Prop where
  tables : w.tables s = .ok text
  houtput : s.output = some output
  hdepfile : s.depfile = some depfile
  writes : w.Writes output text s.mode
  accepted : w.Accepts output text
  refused : ¬ w.Accepts depfile (Depfile.rule output [s.input])

/-! ## What a failure leaves -/

theorem sameFiles_or_halfDone (h : Task.conclusion (generateTables s) w = (.error f, w')) :
    w.SameFiles w' ∨ ∃ text output depfile target, w.HalfDone s text output depfile ∧
      w.files.locateTarget w.working output = .ok target ∧
      (w.withFile target text).SameFiles w' := by
  obtain ⟨r, w₁, houtcome, hgeneration⟩ := generation_generateTables s w
  cases r with
  | ok p => cases (Task.conclusion_of_ok houtcome).symm.trans h
  | error e =>
      cases (Task.conclusion_of_error houtcome).symm.trans h
      cases hgeneration with
      | failed tables same =>
          rw [released_of_nothing (leftover?_of_tables tables)]
          exact .inl same
      | @delivered text _ _ tables delivery =>
          cases delivery with
          | unprinted houtput nothing same =>
              rw [released_of_nothing nothing]
              exact .inl same
          | @filed output _ _ houtput filing =>
              cases filing with
              | unpublished publication => exact .inl publication.sameFiles_released
              | @ruled depfile _ w₂ _ _ hdepfile mode publication replacement =>
                  have hreleased := replacement.sameFiles_released
                  -- The output was free to be replaced, so the dependency file was out of reach before
                  -- too.
                  obtain ⟨l, hput⟩ := publication.put
                  have hrefused : ¬ w.Accepts depfile (Depfile.rule output [s.input]) :=
                    mt hput.fixtures.accepts_iff.mp replacement.not_accepts
                  cases publication with
                  | unchanged holds same => exact .inl (same.trans hreleased)
                  | @written target _ writes accepted located same =>
                      exact .inr ⟨text, output, depfile, target,
                        ⟨tables, houtput, hdepfile, writes, accepted, hrefused⟩, located,
                        same.trans hreleased⟩

theorem HalfDone.conclusion (h : w.HalfDone s text output depfile) :
    ∃ f w' target, Task.conclusion (generateTables s) w = (.error f, w') ∧
      w.files.locateTarget w.working output = .ok target ∧
      (w.withFile target text).SameFiles w' := by
  obtain ⟨r, w₁, houtcome, hgeneration⟩ := generation_generateTables s w
  cases hgeneration.filing h.tables h.houtput with
  | unpublished publication =>
      obtain ⟨-, hr, -⟩ := publication.of_writes h.writes h.accepted
      cases hr
  | published unruled publication =>
      rcases unruled with hnone | hcheck
      · cases h.hdepfile.symm.trans hnone
      · have hwrites := h.writes
        rw [hcheck] at hwrites
        exact hwrites.elim
  | ruled hdepfile mode publication replacement =>
      cases h.hdepfile.symm.trans hdepfile
      obtain ⟨target, -, hlocated, hsame⟩ := publication.of_writes h.writes h.accepted
      obtain ⟨l, hput⟩ := publication.put
      cases r with
      | error f =>
          exact ⟨f, _, target, Task.conclusion_of_error houtcome, hlocated,
            hsame.trans replacement.sameFiles_released⟩
      | ok p => exact absurd (hput.fixtures.accepts_iff.mpr replacement.accepts) h.refused

/-! ## Contents -/

/-- The worlds have the same directories, and the same files with the same contents. -/
def SameContents (w w' : World) : Prop :=
  ∀ l, (w'.files.node? l).map Files.Node.bare = (w.files.node? l).map Files.Node.bare

/-- The path leads to a file with the text, which may refuse to be read. -/
def HasText (w : World) (path : Path) (text : String) : Prop :=
  ∃ l r, w.files.locate w.working path = .ok l ∧
    w.files.node? l = some (.file text.toByteArray r)

theorem SameFiles.sameContents (h : w.SameFiles w') : w.SameContents w' :=
  fun l => by rw [h.files]

/-- A text in the place of another changes the contents, unless it was there already. -/
theorem sameContents_withFile_iff (hlocated : w.files.locateTarget w.working output = .ok target) :
    w.SameContents (w.withFile target text) ↔ w.HasText output text := by
  obtain ⟨hlocate, hopen⟩ := Tree.locate_of_locateTarget hlocated
  constructor
  · intro h
    have hbare := h target
    rw [node?_withFile_self hopen.ne_nil] at hbare
    obtain ⟨n, hnode, hn⟩ := Option.map_eq_some_iff.mp hbare.symm
    cases n with
    | directory r => cases hn
    | file contents r =>
        cases hn
        exact ⟨target, r, hlocate, hnode⟩
  · rintro ⟨l, r, hlocate', hnode⟩ k
    cases hlocate.symm.trans hlocate'
    by_cases hk : k = target
    · rw [hk, node?_withFile_self hopen.ne_nil, hnode]
      rfl
    · rw [node?_withFile_of_ne hopen.ne_nil hk]

/-- A failed generation leaves the contents of every file as they were if, and only if, it is never half
done; being half done is harmless where the output had the text before. -/
theorem generateTables_all_or_nothing_iff (w : World) (s : Settings) :
    (∀ f w', Task.conclusion (generateTables s) w = (.error f, w') → w.SameContents w') ↔
      ∀ text output depfile, w.HalfDone s text output depfile → w.HasText output text := by
  constructor
  · intro h text output depfile hhalf
    obtain ⟨f, w', target, hconclusion, hlocated, hsame⟩ := hhalf.conclusion
    refine (sameContents_withFile_iff hlocated).mp fun l => ?_
    rw [← hsame.files]
    exact h f w' hconclusion l
  · intro h f w' hconclusion
    rcases sameFiles_or_halfDone hconclusion with
      hsame | ⟨text, output, depfile, target, hhalf, hlocated, hsame⟩
    · exact hsame.sameContents
    · intro l
      rw [hsame.files]
      exact (sameContents_withFile_iff hlocated).mpr (h text output depfile hhalf) l

/-- The directory for the dependency file is missing, but the output is replaced before anyone
looks. -/
theorem generateTables_half_done :
    let w : World :=
      { files := ⟨[(["m.toml"], .file "".toByteArray), (["out.inc"], .file "previous\n".toByteArray)]⟩ }
    let s : Settings :=
      { input := ⟨"m.toml"⟩, output := some ⟨"out.inc"⟩, depfile := some ⟨"missing/out.d"⟩
        mode := .always, emit := { header := false, sourceName := some "m.toml" } }
    ∃ f w', Task.conclusion (generateTables s) w = (.error f, w') ∧ ¬ w.SameContents w' := by
  intro w s
  have hrun : (match Task.conclusion (generateTables s) w with
      | (.error _, w') => !decide ((w'.files.node? ["out.inc"]).map Files.Node.bare =
          (w.files.node? ["out.inc"]).map Files.Node.bare)
      | (.ok _, _) => false) = true := by
    decide +kernel
  rcases hconclusion : Task.conclusion (generateTables s) w with ⟨r, w'⟩
  rw [hconclusion] at hrun
  cases r with
  | error f =>
      refine ⟨f, w', rfl, fun h => ?_⟩
      dsimp only at hrun
      rw [h ["out.inc"]] at hrun
      simp at hrun
  | ok p => cases hrun

end World

end AttributeTables
