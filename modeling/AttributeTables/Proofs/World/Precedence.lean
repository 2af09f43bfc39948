import AttributeTables.Proofs.World.Command
import AttributeTables.Proofs.World.Failures

/-!
# Requests and configurations

What a request leaves open is taken from the configuration that it names, whose relative paths are
meant from the directory of its file. Settings that were found in this way are enough for a generation:
it has nothing to say against them, and it does not pass over the dependency file.
-/

namespace AttributeTables

variable {w w' : World} {request : GenerationRequest} {written : Config} {s : Settings}
  {p output depfile : Path}

/-! ## What is configured -/

/-- A path that stands in the configuration of the request, as seen from outside. -/
def GenerationRequest.rebase (request : GenerationRequest) (p : Path) : Path :=
  match request.config with
  | none => p
  | some file => if p.isAbsolute then p else (file.parent?.getD ⟨""⟩).join p

/-- The configuration of the request with its paths as seen from outside. -/
def GenerationRequest.rebased (request : GenerationRequest) (c : Config) : Config :=
  { c with
    input := c.input.map request.rebase
    output := c.output.map request.rebase
    depfile := c.depfile.map request.rebase }

theorem GenerationRequest.join_eq_rebase {file : Path} (h : request.config = some file) :
    (file.parent?.getD ⟨""⟩).join = request.rebase := by
  funext p
  simp only [rebase, h]
  split_ifs with habsolute
  · exact if_pos habsolute
  · rfl

namespace World

/-- The request names a configuration that is written so, or it names none. -/
inductive Configures (w : World) (request : GenerationRequest) : Config → Prop where
  | unnamed (named : request.config = none) : Configures w request {}
  | named {file : Path} {source : String} {written : Config} (named : request.config = some file)
      (text : w.readText file = .ok source) (parsed : Config.parse file.text source = .ok written) :
      Configures w request written

theorem Configures.config_eq (h : w.Configures request written) :
    w.config request = .ok (request.rebased written) := by
  cases h with
  | unnamed named =>
      rw [config, named]
      rfl
  | named named text parsed =>
      simp only [config, named, text, parsed]
      rw [Config.relativeTo, GenerationRequest.join_eq_rebase named, GenerationRequest.rebased]

end World

/-! ## What has precedence -/

namespace GenerationRequest

/-- Neither the request nor the configuration gives an input. -/
def LacksInput (request : GenerationRequest) (c : Config) : Prop :=
  request.input = none ∧ c.input = none

/-- Neither the request nor the configuration gives an output. -/
def LacksOutput (request : GenerationRequest) (c : Config) : Prop :=
  request.output = none ∧ c.output = none

/-- The request or the configuration gives a dependency file. -/
def WantsDepfile (request : GenerationRequest) (c : Config) : Prop :=
  request.depfile ≠ none ∨ c.depfile ≠ none

/-- The path of the request, or else the one in its configuration as seen from outside. -/
def prefer (request : GenerationRequest) (own configured : Option Path) : Option Path :=
  match own with
  | some p => some p
  | none => configured.map request.rebase

/-- The settings are what the request says, and where it says nothing, what the configuration says. -/
structure Prevails (request : GenerationRequest) (c : Config) (s : Settings) : Prop where
  input : request.prefer request.input c.input = some s.input
  output : request.prefer request.output c.output = s.output
  depfile : request.prefer request.depfile c.depfile = s.depfile
  check : s.mode = .check ↔ request.check = true
  ifChanged : s.mode = .ifChanged ↔
    request.check = false ∧ (request.writeIfChanged = true ∨ c.writeIfChanged = true)
  style : s.emit.style = request.style.getD c.emit.style
  header : s.emit.header = true ↔ c.emit.header = true ∧ request.noHeader = false
  sourceName : s.emit.sourceName = c.emit.sourceName.or s.input.fileName?

theorem orElse_map_rebase (own configured : Option Path) :
    (own <|> configured.map request.rebase) = request.prefer own configured := by
  cases own <;> rfl

theorem prefer_eq_none_iff {own configured : Option Path} :
    request.prefer own configured = none ↔ own = none ∧ configured = none := by
  cases own <;> simp [prefer]

theorem lacksOutput_iff : request.LacksOutput written ↔
    (request.prefer request.output written.output).isNone = true := by
  rw [Option.isNone_iff_eq_none, prefer_eq_none_iff, LacksOutput]

theorem wantsDepfile_iff : request.WantsDepfile written ↔
    (request.prefer request.depfile written.depfile).isSome = true := by
  rw [Option.isSome_iff_ne_none, Ne, prefer_eq_none_iff, not_and_or, WantsDepfile]

theorem prevails_modeOf (hinput : request.prefer request.input written.input = some p) :
    request.Prevails written
      { input := p
        output := request.prefer request.output written.output
        depfile := request.prefer request.depfile written.depfile
        mode := Settings.modeOf request (request.rebased written)
        emit := Settings.emitOf request (request.rebased written) p } where
  input := hinput
  output := rfl
  depfile := rfl
  check := by
    dsimp only [Settings.modeOf]
    split_ifs with hcheck hchanged
    · exact iff_of_true rfl hcheck
    · exact iff_of_false nofun hcheck
    · exact iff_of_false nofun hcheck
  ifChanged := by
    dsimp only [Settings.modeOf, rebased]
    split_ifs with hcheck hchanged
    · exact iff_of_false nofun fun h => absurd (hcheck.symm.trans h.1) nofun
    · exact iff_of_true rfl ⟨Bool.eq_false_iff.mpr hcheck, Bool.or_eq_true_iff.mp hchanged⟩
    · exact iff_of_false nofun fun h => hchanged (Bool.or_eq_true_iff.mpr h.2)
  style := rfl
  header := by simp [Settings.emitOf, rebased]
  sourceName := by
    simp only [Settings.emitOf, rebased]
    cases written.emit.sourceName <;> rfl

/-- What can become of a request together with a configuration. -/
inductive Resolution (request : GenerationRequest) (c : Config) :
    Except Settings.Fault Settings → Prop where
  | missingInput (input : request.LacksInput c) : Resolution request c (.error .missingInput)
  | depfileWithoutOutput (input : ¬ request.LacksInput c) (depfile : request.WantsDepfile c)
      (output : request.LacksOutput c) : Resolution request c (.error .depfileWithoutOutput)
  | checkWithoutOutput (input : ¬ request.LacksInput c) (depfile : ¬ request.WantsDepfile c)
      (check : request.check = true) (output : request.LacksOutput c) :
      Resolution request c (.error .checkWithoutOutput)
  | settled {s : Settings} (input : ¬ request.LacksInput c)
      (output : request.WantsDepfile c ∨ request.check = true → ¬ request.LacksOutput c)
      (prevails : request.Prevails c s) : Resolution request c (.ok s)

theorem resolution_resolve (request : GenerationRequest) (c : Config) :
    request.Resolution c (Settings.resolve request (request.rebased c)) := by
  have hinput : (request.input <|> (request.rebased c).input) =
      request.prefer request.input c.input :=
    orElse_map_rebase _ _
  have houtput : (request.output <|> (request.rebased c).output) =
      request.prefer request.output c.output :=
    orElse_map_rebase _ _
  have hdepfile : (request.depfile <|> (request.rebased c).depfile) =
      request.prefer request.depfile c.depfile :=
    orElse_map_rebase _ _
  simp only [Settings.resolve, hinput, houtput, hdepfile]
  cases hp : request.prefer request.input c.input with
  | none => exact .missingInput (prefer_eq_none_iff.mp hp)
  | some p =>
      have hgiven : ¬ request.LacksInput c := by
        intro hlacks
        cases hp.symm.trans (prefer_eq_none_iff.mpr hlacks)
      have hunruled : ((request.prefer request.depfile c.depfile).isSome &&
          (request.prefer request.output c.output).isNone) = true ↔
          request.WantsDepfile c ∧ request.LacksOutput c := by
        rw [Bool.and_eq_true, wantsDepfile_iff, lacksOutput_iff]
      have huncompared : (request.check && (request.prefer request.output c.output).isNone) = true ↔
          request.check = true ∧ request.LacksOutput c := by
        rw [Bool.and_eq_true, lacksOutput_iff]
      dsimp only
      -- Where both are asked for without an output, the dependency file is what is complained about.
      by_cases hno : request.WantsDepfile c ∧ request.LacksOutput c
      · rw [if_pos (hunruled.mpr hno)]
        exact .depfileWithoutOutput hgiven hno.1 hno.2
      rw [if_neg (mt hunruled.mp hno)]
      by_cases hnone : request.check = true ∧ request.LacksOutput c
      · rw [if_pos (huncompared.mpr hnone)]
        exact .checkWithoutOutput hgiven (fun hwants => hno ⟨hwants, hnone.2⟩) hnone.1 hnone.2
      · rw [if_neg (mt huncompared.mp hnone)]
        refine .settled hgiven ?_ (prevails_modeOf hp)
        rintro (hwants | hcheck) hlacks
        · exact hno ⟨hwants, hlacks⟩
        · exact hnone ⟨hcheck, hlacks⟩

namespace Resolution

variable {r : Except Settings.Fault Settings}

theorem missingInput_iff (h : request.Resolution written r) :
    r = .error .missingInput ↔ request.LacksInput written := by
  cases h with
  | missingInput input => exact iff_of_true rfl input
  | depfileWithoutOutput input depfile output => exact iff_of_false nofun input
  | checkWithoutOutput input depfile check output => exact iff_of_false nofun input
  | settled input output prevails => exact iff_of_false nofun input

theorem depfileWithoutOutput_iff (h : request.Resolution written r) :
    r = .error .depfileWithoutOutput ↔ ¬ request.LacksInput written ∧
      request.WantsDepfile written ∧ request.LacksOutput written := by
  cases h with
  | missingInput input => exact iff_of_false nofun fun h => h.1 input
  | depfileWithoutOutput input depfile output => exact iff_of_true rfl ⟨input, depfile, output⟩
  | checkWithoutOutput input depfile check output => exact iff_of_false nofun fun h => depfile h.2.1
  | settled input output prevails => exact iff_of_false nofun fun h => output (.inl h.2.1) h.2.2

theorem checkWithoutOutput_iff (h : request.Resolution written r) :
    r = .error .checkWithoutOutput ↔ ¬ request.LacksInput written ∧
      ¬ (request.WantsDepfile written ∧ request.LacksOutput written) ∧
      request.check = true ∧ request.LacksOutput written := by
  cases h with
  | missingInput input => exact iff_of_false nofun fun h => h.1 input
  | depfileWithoutOutput input depfile output =>
      exact iff_of_false nofun fun h => h.2.1 ⟨depfile, output⟩
  | checkWithoutOutput input depfile check output =>
      exact iff_of_true rfl ⟨input, fun h => depfile h.1, check, output⟩
  | settled input output prevails =>
      exact iff_of_false nofun fun h => output (.inr h.2.2.1) h.2.2.2

theorem exists_settings (h : request.Resolution written r) (hinput : ¬ request.LacksInput written)
    (hdepfile : ¬ (request.WantsDepfile written ∧ request.LacksOutput written))
    (hcheck : ¬ (request.check = true ∧ request.LacksOutput written)) :
    ∃ s, r = .ok s ∧ request.Prevails written s := by
  cases h with
  | missingInput input => exact absurd input hinput
  | depfileWithoutOutput input depfile output => exact absurd ⟨depfile, output⟩ hdepfile
  | checkWithoutOutput input depfile check output => exact absurd ⟨check, output⟩ hcheck
  | settled input output prevails => exact ⟨_, rfl, prevails⟩

end Resolution

/-- Settings that ask for a dependency file or for a comparison have an output. -/
theorem Resolution.output_of_settings (h : request.Resolution written (.ok s))
    (hs : s.depfile ≠ none ∨ s.mode = .check) : s.output ≠ none := by
  cases h with
  | settled input output prevails =>
      rw [← prevails.output, Ne, prefer_eq_none_iff]
      refine output (hs.imp ?_ prevails.check.mp)
      rw [← prevails.depfile, Ne, prefer_eq_none_iff, not_and_or]
      exact id

end GenerationRequest

/-! ## Settings that are enough -/

theorem World.Generation.readText_depfile {published : Published}
    (h : w.Generation s (.ok published) w') (houtput : s.output = some output)
    (hdepfile : s.depfile = some depfile) (hmode : s.mode ≠ .check) :
    w'.readText depfile = .ok (Depfile.rule output [s.input]) := by
  obtain ⟨text, htables⟩ := h.exists_text
  cases h.filing htables houtput with
  | published unruled publication =>
      rcases unruled with hnone | hcheck
      · cases hdepfile.symm.trans hnone
      · exact absurd hcheck hmode
  | ruled hdepfile' mode publication replacement =>
      cases hdepfile.symm.trans hdepfile'
      obtain ⟨l, hput⟩ := replacement.put
      exact hput.readText

/-- A generation with the settings, in any world, has nothing to say against them, and it writes the
dependency file if they have one, unless it only compares. -/
def Settings.Sufficient (s : Settings) : Prop :=
  ∀ w r w', Task.outcome (generateTables s) w = (r, w') →
    (∀ fault, r ≠ .error (.settings fault)) ∧
      ∀ published depfile, r = .ok published → s.depfile = some depfile → s.mode ≠ .check →
        ∃ output, s.output = some output ∧
          w'.readText depfile = .ok (Depfile.rule output [s.input])

theorem GenerationRequest.Resolution.sufficient (h : request.Resolution written (.ok s)) :
    s.Sufficient := by
  intro w r w' houtcome
  refine ⟨?_, ?_⟩
  · rintro fault rfl
    exact Task.failsOnly_generateTables (fun hcheck => h.output_of_settings (.inr hcheck)) w _ w'
      houtcome fault rfl
  · rintro published depfile rfl hdepfile hmode
    have hsome : s.depfile ≠ none := by
      rw [hdepfile]
      nofun
    obtain ⟨output, houtput⟩ := Option.ne_none_iff_exists'.mp (h.output_of_settings (.inl hsome))
    obtain ⟨_, _, houtcome', hgeneration⟩ := World.generation_generateTables s w
    cases houtcome'.symm.trans houtcome
    exact ⟨output, houtput, hgeneration.readText_depfile houtput hdepfile hmode⟩

/-- Whatever configuration the request names, the settings are refused exactly if something is missing,
and which refusal it is follows a fixed order. All other settings are those of the request, then those
of the configuration with its paths as seen from outside; and they are enough for a generation. -/
theorem Settings.resolve_of_configures (h : w.Configures request written) :
    ∃ config w₁, Task.outcome (configOf request) w = (.ok config, w₁) ∧
      (Settings.resolve request config = .error .missingInput ↔ request.LacksInput written) ∧
      (Settings.resolve request config = .error .depfileWithoutOutput ↔
        ¬ request.LacksInput written ∧
          request.WantsDepfile written ∧ request.LacksOutput written) ∧
      (Settings.resolve request config = .error .checkWithoutOutput ↔
        ¬ request.LacksInput written ∧
          ¬ (request.WantsDepfile written ∧ request.LacksOutput written) ∧
          request.check = true ∧ request.LacksOutput written) ∧
      (¬ request.LacksInput written →
        ¬ (request.WantsDepfile written ∧ request.LacksOutput written) →
        ¬ (request.check = true ∧ request.LacksOutput written) →
        ∃ s, Settings.resolve request config = .ok s ∧ request.Prevails written s ∧
          s.Sufficient) := by
  obtain ⟨w₁, hconfig, -⟩ := World.outcome_configOf request w
  rw [h.config_eq] at hconfig
  have hresolution := request.resolution_resolve written
  refine ⟨_, w₁, hconfig, hresolution.missingInput_iff, hresolution.depfileWithoutOutput_iff,
    hresolution.checkWithoutOutput_iff, fun hinput hdepfile hcheck => ?_⟩
  obtain ⟨s, hs, hprevails⟩ := hresolution.exists_settings hinput hdepfile hcheck
  rw [hs] at hresolution
  exact ⟨s, hs, hprevails, hresolution.sufficient⟩

/-- The configuration gives an output, and the request an input and a dependency file. -/
theorem Settings.resolve_of_configures_output :
    let w : World :=
      { files := ⟨[(["sub"], .directory),
          (["sub", "c.toml"], .file "output = \"out.inc\"\n".toByteArray)]⟩ }
    let request : GenerationRequest :=
      { config := some ⟨"sub/c.toml"⟩, input := some ⟨"m.toml"⟩, depfile := some ⟨"out.d"⟩
        writeIfChanged := true }
    ∃ config w₁ s, Task.outcome (configOf request) w = (.ok config, w₁) ∧
      Settings.resolve request config = .ok s ∧ s.input = ⟨"m.toml"⟩ ∧
      s.output = some ⟨"sub/out.inc"⟩ ∧ s.depfile = some ⟨"out.d"⟩ ∧ s.mode = .ifChanged := by
  intro w request
  have htext : w.readText ⟨"sub/c.toml"⟩ = .ok "output = \"out.inc\"\n" :=
    World.readText_eq_ok_iff.mpr ⟨["sub", "c.toml"], {}, rfl, rfl, rfl⟩
  have hparsed : Config.parse "sub/c.toml" "output = \"out.inc\"\n" =
      .ok { output := some ⟨"out.inc"⟩ } := by
    decide +kernel
  obtain ⟨config, w₁, hload, -, -, -, hsettled⟩ :=
    Settings.resolve_of_configures (.named rfl htext hparsed : w.Configures request _)
  obtain ⟨s, hs, hprevails, -⟩ := hsettled (by simp [GenerationRequest.LacksInput, request])
    (by simp [GenerationRequest.LacksOutput]) (by simp [GenerationRequest.LacksOutput])
  have hinput : some (⟨"m.toml"⟩ : Path) = some s.input := hprevails.input
  exact ⟨config, w₁, s, hload, hs, (Option.some.inj hinput).symm, hprevails.output.symm,
    hprevails.depfile.symm, hprevails.ifChanged.mpr ⟨rfl, .inl rfl⟩⟩

end AttributeTables
