import AttributeTables.Proofs.World.Generation

/-!
# Failures that are not about the settings

A task can only fail as one of its parts does. So a generation has nothing to say against its settings,
unless they ask it to compare and name no output.
-/

namespace AttributeTables

variable {α β : Type} {s : Settings} {mode : WriteMode}

/-- The failure says nothing against the settings. -/
def Failure.SparesSettings (f : Failure) : Prop := ∀ fault, f ≠ .settings fault

namespace Task

/-! ## Failures of parts and of the whole -/

variable {allowed : Failure → Prop} {task : Task (StateM World) α}
  {next : α → Task (StateM World) β}

/-- Only such failures can become of the task, in any world. -/
def FailsOnly (allowed : Failure → Prop) (task : Task (StateM World) α) : Prop :=
  ∀ w f w', outcome task w = (.error f, w') → allowed f

theorem failsOnly_pure (a : α) : FailsOnly allowed (pure a) := by
  rintro w f w' ⟨⟩

theorem failsOnly_lift (action : StateM World α) : FailsOnly allowed (ExceptT.lift action) := by
  rintro w f w' ⟨⟩

theorem failsOnly_throw {f : Failure} (h : allowed f) :
    FailsOnly allowed (throw f : Task (StateM World) α) := by
  rintro w _ w' ⟨⟩
  exact h

theorem FailsOnly.bind (h : FailsOnly allowed task) (hnext : ∀ a, FailsOnly allowed (next a)) :
    FailsOnly allowed (task >>= next) := by
  intro w f w' houtcome
  rw [outcome_bind] at houtcome
  rcases htask : outcome task w with ⟨e | a, w₁⟩
  · rw [htask] at houtcome
    cases houtcome
    exact h w f w' htask
  · rw [htask] at houtcome
    exact hnext a w₁ f w' houtcome

theorem failsOnly_readText (path : Path) : FailsOnly allowed (Host.readText path) := by
  intro w f w' houtcome
  cases (World.outcome_readText path w).symm.trans houtcome

theorem failsOnly_reportAll (records : List Log.Record) :
    FailsOnly allowed (Host.reportAll records) := by
  intro w f w' houtcome
  obtain ⟨w₁, hreport, -⟩ := World.outcome_reportAll records w
  cases hreport.symm.trans houtcome

/-! ## Tasks of the program -/

theorem failsOnly_replaceFile (path : Path) (contents : String) :
    FailsOnly Failure.SparesSettings (replaceFile path contents) := by
  refine (failsOnly_lift _).bind ?_
  rintro (⟨fault, file⟩ | temporary)
  · exact failsOnly_throw nofun
  refine (failsOnly_lift _).bind ?_
  rintro (fault | _)
  · exact (failsOnly_lift _).bind fun _ => failsOnly_throw nofun
  refine (failsOnly_lift _).bind ?_
  rintro (fault | _)
  · exact failsOnly_throw nofun
  · exact failsOnly_pure ()

theorem failsOnly_existingText (path : Path) :
    FailsOnly Failure.SparesSettings (existingText path) := by
  refine (failsOnly_readText path).bind ?_
  rintro (fault | text)
  · cases fault with
    | notFound => exact failsOnly_pure none
    | _ => exact failsOnly_throw nofun
  · exact failsOnly_pure (some text)

theorem failsOnly_writeFile (path : Path) (contents : String) :
    FailsOnly Failure.SparesSettings (writeFile path contents) :=
  (failsOnly_replaceFile path contents).bind fun _ => (failsOnly_lift _).bind fun _ =>
    failsOnly_pure _

theorem failsOnly_publishFile (path : Path) (contents : String) (mode : WriteMode) :
    FailsOnly Failure.SparesSettings (publishFile path contents mode) := by
  by_cases halways : mode = .always
  · rw [halways]
    exact failsOnly_writeFile path contents
  · rw [World.publishFile_of_ne_always halways]
    refine (failsOnly_existingText path).bind fun existing => ?_
    split_ifs
    · exact (failsOnly_lift _).bind fun _ => failsOnly_pure _
    · exact failsOnly_throw nofun
    · exact failsOnly_writeFile path contents

theorem failsOnly_publish {path : Option Path} (h : mode = .check → path ≠ none) :
    FailsOnly Failure.SparesSettings (publish path contents mode) := by
  cases path with
  | some path => exact failsOnly_publishFile path contents mode
  | none =>
      rw [publish, if_neg (by simpa using h)]
      refine (failsOnly_lift _).bind fun printed => ?_
      cases printed with
      | error fault => exact failsOnly_throw (by simp [Failure.SparesSettings])
      | ok => exact failsOnly_pure _

theorem failsOnly_writeDepfile (depfile target : Path) (dependencies : List Path) :
    FailsOnly Failure.SparesSettings (writeDepfile depfile target dependencies) :=
  (failsOnly_replaceFile depfile _).bind fun _ => failsOnly_lift _

theorem failsOnly_loadManifest (path : Path) :
    FailsOnly Failure.SparesSettings (loadManifest path) := by
  refine (failsOnly_readText path).bind ?_
  rintro (fault | source)
  · exact failsOnly_throw nofun
  refine (failsOnly_reportAll _).bind fun _ => ?_
  cases Manifest.load path.text source with
  | error f => exact failsOnly_throw nofun
  | ok registry => exact failsOnly_pure registry

/-- A generation has something to say against its settings only if it has nothing to compare with. -/
theorem failsOnly_generateTables (h : s.mode = .check → s.output ≠ none) :
    FailsOnly Failure.SparesSettings (generateTables s) := by
  refine (failsOnly_loadManifest s.input).bind fun registry => ?_
  refine (failsOnly_reportAll _).bind fun _ => ?_
  cases Output.generate registry.catalogue s.emit with
  | error f => exact failsOnly_throw nofun
  | ok text =>
      refine (failsOnly_publish h).bind fun published => ?_
      cases s.depfile with
      | none => exact failsOnly_pure published
      | some depfile =>
          cases s.output with
          | none => exact failsOnly_pure published
          | some output =>
              dsimp only
              split_ifs
              · exact (failsOnly_writeDepfile depfile output _).bind fun _ => failsOnly_pure published
              · exact failsOnly_pure published

end Task

end AttributeTables
