import AttributeTables.Proofs.World.Generation

/-!
# Commands

What can become of a world when a command is carried out. Only a generation writes files.
-/

namespace AttributeTables

variable {w w' : World} {request : GenerationRequest} {f : Failure}

namespace World

/-! ## Settings -/

/-- The configuration that a request names. -/
def config (w : World) (request : GenerationRequest) : Except Failure Config :=
  match request.config with
  | none => .ok {}
  | some path =>
    match w.readText path with
    | .error fault => .error (.unreadable path fault)
    | .ok source =>
      match Config.parse path.text source with
      | .error f => .error (.config f)
      | .ok config => .ok (config.relativeTo (path.parent?.getD ⟨""⟩))

/-- The settings for a request. -/
def settings (w : World) (request : GenerationRequest) : Except Failure Settings :=
  match w.config request with
  | .error f => .error f
  | .ok config => (Settings.resolve request config).mapError .settings

theorem SameFiles.settings_eq (h : w.SameFiles w') (request : GenerationRequest) :
    w'.settings request = w.settings request := by
  simp only [settings, config, h.readText_eq]

theorem leftover?_of_config (h : w.config request = .error f) : f.leftover? = none := by
  rw [config] at h
  split at h
  · cases h
  · split at h
    · cases h
      rfl
    · split at h
      · cases h
        rfl
      · cases h

theorem leftover?_of_settings (h : w.settings request = .error f) : f.leftover? = none := by
  rw [settings] at h
  split at h
  case h_1 hconfig =>
    cases h
    exact leftover?_of_config hconfig
  case h_2 =>
    obtain ⟨e, -, rfl⟩ := mapError_eq_error_iff.mp h
    rfl

theorem outcome_configOf (request : GenerationRequest) (w : World) :
    ∃ w', Task.outcome (configOf request) w = (w.config request, w') ∧ w.SameFiles w' := by
  rw [configOf, config]
  cases request.config with
  | none => exact ⟨w, rfl, .refl w⟩
  | some path =>
      dsimp only
      rw [loadConfig, Task.outcome_bind, outcome_readText]
      dsimp only
      cases w.readText path with
      | error fault => exact ⟨w, rfl, .refl w⟩
      | ok source =>
          dsimp only
          cases Config.parse path.text source with
          | error e => exact ⟨w, rfl, .refl w⟩
          | ok config => exact ⟨_, rfl, w.sameFiles_report _⟩

theorem outcome_settingsOf (request : GenerationRequest) (config : Config) (w : World) :
    Task.outcome (settingsOf request config) w =
      ((Settings.resolve request config).mapError .settings, w) := by
  rw [settingsOf]
  cases Settings.resolve request config <;> rfl

/-! ## What a command comes to -/

/-- What can become of a world when a command is carried out. -/
inductive Execution (w : World) : Command → Except Failure Unit → World → Prop where
  | unsettled {request : GenerationRequest} {f : Failure} {w' : World}
      (settings : w.settings request = .error f) (same : w.SameFiles w') :
      Execution w (.generate request) (.error f) w'
  | generated {request : GenerationRequest} {s : Settings} {r : Except Failure Published}
      {w' : World} (settings : w.settings request = .ok s) (generation : w.Generation s r w') :
      Execution w (.generate request) (r.map fun _ => ()) w'
  | listed {input : Path} {r : Except Failure Unit} {w' : World}
      (nothing : ∀ f, r = .error f → f.leftover? = none) (same : w.SameFiles w') :
      Execution w (.list input) r w'

theorem Execution.of_sameFiles {c : Command} {r : Except Failure Unit} {w'' : World}
    (h : w.SameFiles w') (he : w'.Execution c r w'') : w.Execution c r w'' := by
  cases he with
  | unsettled settings same =>
      exact .unsettled ((h.settings_eq _).symm.trans settings) (h.trans same)
  | generated settings generation =>
      exact .generated ((h.settings_eq _).symm.trans settings) (generation.of_sameFiles h)
  | listed nothing same => exact .listed nothing (h.trans same)

theorem execution_generate (request : GenerationRequest) (w : World) :
    ∃ r w', Task.outcome (carryOut (.generate request)) w = (r, w') ∧
      w.Execution (.generate request) r w' := by
  obtain ⟨w₁, hconfig, hsame₁⟩ := outcome_configOf request w
  rw [carryOut, Task.outcome_bind, hconfig]
  cases hc : w.config request with
  | error f =>
      have hsettings : w.settings request = .error f := by rw [settings, hc]
      exact ⟨_, _, rfl, .unsettled hsettings hsame₁⟩
  | ok config =>
      have hsettings : w.settings request = (Settings.resolve request config).mapError .settings := by
        rw [settings, hc]
      dsimp only
      rw [Task.outcome_bind, outcome_settingsOf, ← hsettings]
      cases hs : w.settings request with
      | error f => exact ⟨_, _, rfl, .unsettled hs hsame₁⟩
      | ok s =>
          dsimp only
          rw [Task.outcome_bind, Task.outcome_report]
          dsimp only
          have hsame := hsame₁.trans (w₁.sameFiles_report
            ⟨.debug, "hyattr_tblgen", "Resolved settings: " ++ s.describe⟩)
          obtain ⟨r, w', houtcome, hgeneration⟩ := generation_generateTables s _
          rw [Task.outcome_bind, houtcome]
          have hexecution := Execution.generated hs (hgeneration.of_sameFiles hsame)
          cases r <;> exact ⟨_, _, rfl, hexecution⟩

theorem execution_list (input : Path) (w : World) :
    ∃ r w', Task.outcome (carryOut (.list input)) w = (r, w') ∧
      w.Execution (.list input) r w' := by
  obtain ⟨w₁, hload, hsame⟩ := outcome_loadManifest input w
  rw [carryOut, Task.outcome_bind, hload]
  cases hmanifest : w.manifest input with
  | error f =>
      refine ⟨_, _, rfl, .listed ?_ hsame⟩
      rintro _ ⟨⟩
      exact leftover?_of_manifest hmanifest
  | ok registry =>
      have hprinted := hsame.trans (w₁.sameFiles_print registry.listing)
      dsimp only
      rw [Task.outcome_bind, Task.outcome_print]
      rcases hprint : w₁.print registry.listing with ⟨fault | u, w₂⟩ <;> rw [hprint] at hprinted
      · refine ⟨_, _, rfl, .listed ?_ hprinted⟩
        rintro _ ⟨⟩
        rfl
      · exact ⟨_, _, rfl, .listed nofun hprinted⟩

theorem execution_carryOut (c : Command) (w : World) :
    ∃ r w', Task.outcome (carryOut c) w = (r, w') ∧ w.Execution c r w' := by
  cases c with
  | generate request => exact execution_generate request w
  | list input => exact execution_list input w

end World

end AttributeTables
