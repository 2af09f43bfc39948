import AttributeTables.Proofs.World.Command

/-!
# Leftovers

A run of the program leaves the entries that were there, and those of the output and the dependency
file. A temporary file that was created and written stays as well if the path that it is for is no
possible target, since the program ends while the failure that owns the file is still held. A file
that could not be created or written leaves nothing.
-/

namespace AttributeTables

open Files (Location Tree)

variable {α : Type} {w w' : World} {s : Settings} {path : Path} {contents text : String}
  {mode : WriteMode} {l : Location} {named : Location → Prop} {left : Option Location}

namespace World

/-! ## Entries -/

/-- Something is at the location. -/
def HasEntry (w : World) (l : Location) : Prop := w.files.node? l ≠ none

/-- The location of the temporary file that a failure leaves over. -/
def leftover (r : Except Failure α) : Option Location :=
  match r with
  | .ok _ => none
  | .error f => f.leftover?.map (·.location)

/-- The second world has the entries of the first one, perhaps some at locations with a name, and a
new one that is left over. -/
structure Grows (w w' : World) (named : Location → Prop) (left : Option Location) : Prop where
  kept : ∀ l, w.HasEntry l → w'.HasEntry l
  new : ∀ l, w'.HasEntry l → w.HasEntry l ∨ named l ∨ left = some l
  stranded : ∀ l, left = some l → ¬ w.HasEntry l ∧ w'.HasEntry l

theorem SameFiles.grows (h : w.SameFiles w') (named : Location → Prop) : w.Grows w' named none := by
  refine ⟨fun l hl => ?_, fun l hl => .inl ?_, nofun⟩
  · rw [HasEntry, h.files]
    exact hl
  · rw [HasEntry, h.files] at hl
    exact hl

theorem Grows.trans {w₁ : World} (h : w.Grows w₁ named none) (h' : w₁.Grows w' named left) :
    w.Grows w' named left := by
  refine ⟨fun l hl => h'.kept l (h.kept l hl), fun l hl => ?_, fun l hl => ?_⟩
  · rcases h'.new l hl with hl | hl
    · exact (h.new l hl).imp_right fun hl => .inl (hl.resolve_right nofun)
    · exact .inr hl
  · obtain ⟨hfree, hentry⟩ := h'.stranded l hl
    exact ⟨mt (h.kept l) hfree, hentry⟩

theorem Grows.of_sameFiles {w₁ : World} (h : w.Grows w₁ named left) (hsame : w₁.SameFiles w') :
    w.Grows w' named left := by
  have hentry : ∀ l, w'.HasEntry l ↔ w₁.HasEntry l := fun l => by
    rw [HasEntry, HasEntry, hsame.files]
  refine ⟨fun l hl => (hentry l).mpr (h.kept l hl), fun l hl => h.new l ((hentry l).mp hl), ?_⟩
  exact fun l hl => (h.stranded l hl).imp_right (hentry l).mpr

theorem Grows.mono {named' : Location → Prop} (h : w.Grows w' named left)
    (hnamed : ∀ l, named l → named' l) : w.Grows w' named' left :=
  ⟨h.kept, fun l hl => (h.new l hl).imp_right (.imp_left (hnamed l)), h.stranded⟩

theorem hasEntry_iff_of_frame {n : Files.Node} (hheld : w'.files.node? l = some n)
    (hframe : ∀ k, k ≠ l → w'.files.node? k = w.files.node? k) (k : Location) :
    w'.HasEntry k ↔ w.HasEntry k ∨ k = l := by
  by_cases hk : k = l
  · rw [HasEntry, hk, hheld]
    exact iff_of_true nofun (.inr rfl)
  · rw [HasEntry, HasEntry, hframe k hk, or_iff_left hk]

theorem Put.grows (h : w.Put w' path contents l) (hnamed : named l) : w.Grows w' named none := by
  obtain ⟨r, -, hheld⟩ := h.held
  have hentry := hasEntry_iff_of_frame hheld h.frame
  refine ⟨fun k hk => (hentry k).mpr (.inl hk), fun k hk => ?_, nofun⟩
  refine ((hentry k).mp hk).imp_right fun hkl => ?_
  rw [hkl]
  exact .inl hnamed

theorem grows_of_stranded {t : Temporary} (hfree : w.files.node? t.location = none)
    (hsame : (w.withFile t.location contents).SameFiles w') :
    w.Grows w' named (some t.location) := by
  have hl : t.location ≠ [] := (Tree.isOpen_of_free hfree).ne_nil
  have hheld : w'.files.node? t.location = some (.file contents.toByteArray) := by
    rw [hsame.files, node?_withFile_self hl]
  have hframe : ∀ k, k ≠ t.location → w'.files.node? k = w.files.node? k := by
    intro k hk
    rw [hsame.files, node?_withFile_of_ne hl hk]
  have hentry := hasEntry_iff_of_frame hheld hframe
  refine ⟨fun k hk => (hentry k).mpr (.inl hk), fun k hk => ?_, ?_⟩
  · refine ((hentry k).mp hk).imp_right fun hkl => ?_
    rw [hkl]
    exact .inr rfl
  · rintro _ ⟨⟩
    exact ⟨fun h => h hfree, (hentry _).mpr (.inr rfl)⟩

/-! ## What each step leaves -/

theorem grows_of_nothing {f : Failure} (hnothing : f.leftover? = none) (h : w.SameFiles w')
    (named : Location → Prop) : w.Grows w' named (leftover (.error f : Except Failure α)) := by
  rw [leftover, hnothing]
  exact h.grows named

theorem Replacement.grows {a : α} {r : Except Failure α} (h : w.Replacement path contents a r w')
    (hnamed : ∀ l, w.files.locate w.working path = .ok l → named l) :
    w.Grows w' named (leftover r) := by
  cases h with
  | done accepted located same =>
      have hput := put_withFile located same
      exact hput.grows (hnamed _ hput.located)
  | refused refused unstranded nothing same => exact grows_of_nothing nothing same named
  | stranded strands same => exact grows_of_stranded strands.free same

theorem Publication.grows {r : Except Failure Published}
    (h : w.Publication path contents mode r w')
    (hnamed : ∀ l, w.files.locate w.working path = .ok l → named l) :
    w.Grows w' named (leftover r) := by
  cases h with
  | unchanged holds same => exact same.grows named
  | written writes accepted located same =>
      have hput := put_withFile located same
      exact hput.grows (hnamed _ hput.located)
  | refused holds refused unstranded nothing same => exact grows_of_nothing nothing same named
  | stranded writes strands same => exact grows_of_stranded strands.free same

/-- The settings name the location as that of the output or of the dependency file. -/
def Names (w : World) (s : Settings) (l : Location) : Prop :=
  ∃ path, (s.output = some path ∨ s.depfile = some path) ∧ w.files.locate w.working path = .ok l

theorem Filing.grows {output : Path} {r : Except Failure Published}
    (h : w.Filing s text output r w') (houtput : s.output = some output) :
    w.Grows w' (w.Names s) (leftover r) := by
  have hnamed : ∀ l, w.files.locate w.working output = .ok l → w.Names s l :=
    fun l hl => ⟨output, .inl houtput, hl⟩
  cases h with
  | unpublished publication => exact publication.grows hnamed
  | published unruled publication => exact publication.grows hnamed
  | @ruled depfile _ w₁ _ _ hdepfile mode publication replacement =>
      obtain ⟨k, hput⟩ := publication.put
      have hfirst : w.Grows w₁ (w.Names s) none := publication.grows hnamed
      refine hfirst.trans (replacement.grows fun l hl => ⟨depfile, .inr hdepfile, ?_⟩)
      exact hput.fixtures.locate_eq_ok_iff.mpr hl

theorem Generation.grows {r : Except Failure Published} (h : w.Generation s r w') :
    w.Grows w' (w.Names s) (leftover r) := by
  cases h with
  | failed tables same => exact grows_of_nothing (leftover?_of_tables tables) same _
  | delivered tables delivery =>
      cases delivery with
      | printed houtput mode same => exact same.grows _
      | unprinted houtput nothing same => exact grows_of_nothing nothing same _
      | filed houtput filing => exact filing.grows houtput

/-- The command names the location as that of an output or of a dependency file. -/
def CommandNames (w : World) (c : Command) (l : Location) : Prop :=
  ∃ request s, c = .generate request ∧ w.settings request = .ok s ∧ w.Names s l

theorem leftover_map {β : Type} (r : Except Failure α) (f : α → β) :
    leftover (r.map f) = leftover r := by
  cases r <;> rfl

theorem Execution.grows {c : Command} {r : Except Failure Unit} (h : w.Execution c r w') :
    w.Grows w' (w.CommandNames c) (leftover r) := by
  cases h with
  | unsettled settings same => exact grows_of_nothing (leftover?_of_settings settings) same _
  | @generated request s _ _ settings generation =>
      rw [leftover_map]
      exact generation.grows.mono fun l hl => ⟨request, s, rfl, settings, hl⟩
  | listed nothing same =>
      cases r with
      | error f => exact grows_of_nothing (nothing f rfl) same _
      | ok u => exact same.grows _

/-! ## What each step strands -/

theorem leftover_iff_of_nothing {p : Prop} (hnothing : f.leftover? = none) (hp : ¬ p) :
    leftover (.error f : Except Failure α) = some l ↔ p := by
  rw [leftover, hnothing]
  exact iff_of_false nofun hp

theorem Strands.location_eq {k : Location} (h : w.Strands path contents l)
    (h' : w.Strands path contents k) : l = k :=
  Except.ok.inj (h.located.symm.trans h'.located)

theorem leftover_stranded_iff {fault : Files.Fault} {t : Temporary}
    (h : w.Strands path contents t.location) :
    leftover (.error (.unpublished path fault t) : Except Failure α) = some l ↔
      w.Strands path contents l := by
  constructor
  · rintro ⟨⟩
    exact h
  · intro hl
    rw [hl.location_eq h]
    rfl

theorem Replacement.leftover_iff {a : α} {r : Except Failure α}
    (h : w.Replacement path contents a r w') :
    leftover r = some l ↔ w.Strands path contents l := by
  cases h with
  | done accepted located same => exact iff_of_false nofun accepted.not_strands
  | refused refused unstranded nothing same =>
      exact leftover_iff_of_nothing nothing (unstranded l)
  | stranded strands same => exact leftover_stranded_iff strands

theorem Publication.leftover_iff {r : Except Failure Published}
    (h : w.Publication path contents mode r w') :
    leftover r = some l ↔ w.Writes path contents mode ∧ w.Strands path contents l := by
  cases h with
  | unchanged holds same => exact iff_of_false nofun fun hw => hw.1.not_holds holds
  | written writes accepted located same =>
      exact iff_of_false nofun fun hw => accepted.not_strands hw.2
  | refused holds refused unstranded nothing same =>
      exact leftover_iff_of_nothing nothing (unstranded l)
  | stranded writes strands same =>
      rw [leftover_stranded_iff strands]
      exact (and_iff_right writes).symm

/-- With the text and the output, the settings strand a temporary file at the location: the one for the
output, or the one for the dependency file once the output is published. -/
inductive FilingStrands (w : World) (s : Settings) (text : String) (output : Path) (l : Location) :
    Prop
  | output (writes : w.Writes output text s.mode) (strands : w.Strands output text l) :
      FilingStrands w s text output l
  | depfile {depfile : Path} {w₁ : World} (hdepfile : s.depfile = some depfile)
      (mode : s.mode ≠ .check) (publishes : w.Publishes output text s.mode w₁)
      (strands : w₁.Strands depfile (Depfile.rule output [s.input]) l) :
      FilingStrands w s text output l

theorem Filing.leftover_iff {output : Path} {r : Except Failure Published}
    (h : w.Filing s text output r w') :
    leftover r = some l ↔ w.FilingStrands s text output l := by
  cases h with
  | unpublished publication =>
      rw [publication.leftover_iff]
      constructor
      · exact fun hw => .output hw.1 hw.2
      · rintro (⟨writes, strands⟩ | ⟨-, -, publishes, -⟩)
        · exact ⟨writes, strands⟩
        · obtain ⟨⟨p, hp⟩, -⟩ := publication.of_publishes publishes
          cases hp
  | published unruled publication =>
      refine iff_of_false nofun ?_
      rintro (⟨writes, strands⟩ | ⟨hdepfile, mode, -, -⟩)
      · cases publication.leftover_iff.mpr ⟨writes, strands⟩
      · rcases unruled with hnone | hcheck
        · cases hnone.symm.trans hdepfile
        · exact mode hcheck
  | ruled hdepfile mode publication replacement =>
      rw [replacement.leftover_iff]
      constructor
      · intro hstrands
        obtain ⟨w₁, publishes⟩ := publication.exists_publishes
        obtain ⟨-, hsame⟩ := publication.of_publishes publishes
        exact .depfile hdepfile mode publishes (hsame.strands_iff.mpr hstrands)
      · rintro (⟨writes, strands⟩ | ⟨hdepfile', -, publishes, strands⟩)
        · cases publication.leftover_iff.mpr ⟨writes, strands⟩
        · cases hdepfile.symm.trans hdepfile'
          obtain ⟨-, hsame⟩ := publication.of_publishes publishes
          exact hsame.strands_iff.mp strands

/-- A generation with the settings strands a temporary file at the location. This is told from the world
before it. -/
def GenerationStrands (w : World) (s : Settings) (l : Location) : Prop :=
  ∃ text output, w.tables s = .ok text ∧ s.output = some output ∧ w.FilingStrands s text output l

theorem not_generationStrands_of_none (houtput : s.output = none) : ¬ w.GenerationStrands s l := by
  rintro ⟨text, output, -, hsome, -⟩
  cases houtput.symm.trans hsome

theorem generationStrands_iff {output : Path} (htables : w.tables s = .ok text)
    (houtput : s.output = some output) :
    w.GenerationStrands s l ↔ w.FilingStrands s text output l := by
  constructor
  · rintro ⟨text', output', htables', houtput', h⟩
    cases htables.symm.trans htables'
    cases houtput.symm.trans houtput'
    exact h
  · exact fun h => ⟨text, output, htables, houtput, h⟩

theorem Generation.leftover_iff {r : Except Failure Published} (h : w.Generation s r w') :
    leftover r = some l ↔ w.GenerationStrands s l := by
  cases h with
  | failed tables same =>
      refine leftover_iff_of_nothing (leftover?_of_tables tables) ?_
      rintro ⟨text, output, htables, -⟩
      cases tables.symm.trans htables
  | delivered tables delivery =>
      cases delivery with
      | printed houtput mode same => exact iff_of_false nofun (not_generationStrands_of_none houtput)
      | unprinted houtput nothing same =>
          exact leftover_iff_of_nothing nothing (not_generationStrands_of_none houtput)
      | filed houtput filing =>
          exact filing.leftover_iff.trans (generationStrands_iff tables houtput).symm

/-- The command strands a temporary file at the location. -/
def CommandStrands (w : World) (c : Command) (l : Location) : Prop :=
  ∃ request s, c = .generate request ∧ w.settings request = .ok s ∧ w.GenerationStrands s l

theorem commandStrands_generate_iff {request : GenerationRequest}
    (hsettings : w.settings request = .ok s) :
    w.CommandStrands (.generate request) l ↔ w.GenerationStrands s l := by
  constructor
  · rintro ⟨request', s', ⟨⟩, hsettings', h⟩
    cases hsettings.symm.trans hsettings'
    exact h
  · exact fun h => ⟨request, s, rfl, hsettings, h⟩

theorem Execution.leftover_iff {c : Command} {r : Except Failure Unit} (h : w.Execution c r w') :
    leftover r = some l ↔ w.CommandStrands c l := by
  cases h with
  | unsettled settings same =>
      refine leftover_iff_of_nothing (leftover?_of_settings settings) ?_
      rintro ⟨request, s, ⟨⟩, hsettings, -⟩
      cases settings.symm.trans hsettings
  | generated settings generation =>
      rw [leftover_map, commandStrands_generate_iff settings]
      exact generation.leftover_iff
  | listed nothing same =>
      have hstrands : ∀ input l, ¬ w.CommandStrands (.list input) l := by
        rintro input l ⟨request, s, ⟨⟩, -⟩
      cases r with
      | error f => exact leftover_iff_of_nothing (nothing f rfl) (hstrands _ l)
      | ok u => exact iff_of_false nofun (hstrands _ l)

/-! ## Whole runs -/

theorem sameFiles_printErrors (texts : List String) (w : World) :
    w.SameFiles ((Host.printErrors texts : StateM World Unit).run w).2 := by
  induction texts generalizing w with
  | nil => exact .refl w
  | cons text rest ih =>
      have hfirst : w.SameFiles { w with errors := w.errors ++ text } := ⟨rfl, rfl, rfl⟩
      exact hfirst.trans (ih _)

/-- The world in which a command is carried out: the filter for records is set. -/
def prepared (w : World) (verbosity : Nat) (environment : Option String) : World :=
  ((setUpFilter verbosity environment : StateM World Unit).run w).2

theorem sameFiles_prepared (w : World) (verbosity : Nat) (environment : Option String) :
    w.SameFiles (w.prepared verbosity environment) := by
  have hprint := sameFiles_printErrors
    ((({ fallback := Log.Threshold.ofVerbosity verbosity } : Log.Filter).extend
      (environment.getD "")).2.map (· ++ "\n")) w
  exact ⟨hprint.files, hprint.working, hprint.maxSize⟩

/-- The world after a run of the program. -/
def afterRun (w : World) (words : List String) (environment : Option String) : World :=
  ((runProgram words environment : StateM World Nat).run w).2

/-- The command line names the location as that of an output or of a dependency file. -/
def RunNames (w : World) (words : List String) (l : Location) : Prop :=
  ∃ request, CommandLine.read words = .ok request ∧ w.CommandNames request.command l

/-- The command line strands a temporary file at the location. -/
def RunStrands (w : World) (words : List String) (l : Location) : Prop :=
  ∃ request, CommandLine.read words = .ok request ∧ w.CommandStrands request.command l

theorem run_bind {β : Type} (action : StateM World α) (f : α → StateM World β) (w : World) :
    (action >>= f).run w = (f (action.run w).1).run (action.run w).2 := rfl

theorem sameFiles_afterRun_of_error {words : List String} {notice : CommandLine.Notice}
    (hread : CommandLine.read words = .error notice) (environment : Option String) (w : World) :
    w.SameFiles (w.afterRun words environment) := by
  rw [afterRun, runProgram, hread]
  dsimp only
  cases notice.isRequested with
  | true => exact w.sameFiles_print notice.text
  | false => exact ⟨rfl, rfl, rfl⟩

theorem sameFiles_afterRun_of_ok {words : List String} {request : Request}
    (hread : CommandLine.read words = .ok request) (environment : Option String) (w : World) :
    (Task.outcome (carryOut request.command)
      (w.prepared request.verbosity environment)).2.SameFiles (w.afterRun words environment) := by
  rcases hcarry : Task.outcome (carryOut request.command)
    (w.prepared request.verbosity environment) with ⟨r, w'⟩
  rw [Task.outcome, prepared] at hcarry
  rw [afterRun, runProgram, hread]
  dsimp only
  rw [run_bind, run_bind, hcarry]
  cases r <;> exact ⟨rfl, rfl, rfl⟩

theorem grows_afterRun (words : List String) (environment : Option String) (w : World) :
    ∃ left, w.Grows (w.afterRun words environment) (w.RunNames words) left ∧
      ∀ l, left = some l ↔ w.RunStrands words l := by
  cases hread : CommandLine.read words with
  | error notice =>
      refine ⟨none, (sameFiles_afterRun_of_error hread environment w).grows _, fun l => ?_⟩
      refine iff_of_false nofun ?_
      rintro ⟨request, hrequest, -⟩
      cases hread.symm.trans hrequest
  | ok request =>
      have hafter := sameFiles_afterRun_of_ok hread environment w
      obtain ⟨r, w', houtcome, hexecution⟩ :=
        execution_carryOut request.command (w.prepared request.verbosity environment)
      rw [houtcome] at hafter
      -- Setting the filter changes no file.
      have hexecution := hexecution.of_sameFiles
        (w.sameFiles_prepared request.verbosity environment)
      refine ⟨leftover r, (hexecution.grows.of_sameFiles hafter).mono fun l hl => ?_, fun l => ?_⟩
      · exact ⟨request, hread, hl⟩
      · rw [hexecution.leftover_iff]
        constructor
        · exact fun h => ⟨request, hread, h⟩
        · rintro ⟨request', hread', h⟩
          cases hread.symm.trans hread'
          exact h

/-- A run of the program keeps every entry. It leaves no others than those that the command line names,
and the temporary file that it strands: one that can be created and written, for a path that is no
possible target. So it leaves only what the command line names if, and only if, it strands no file
elsewhere. -/
theorem runProgram_entries (words : List String) (environment : Option String) (w : World) :
    (∀ l, w.HasEntry l → (w.afterRun words environment).HasEntry l) ∧
      (∀ l, (w.afterRun words environment).HasEntry l →
        w.HasEntry l ∨ w.RunNames words l ∨ w.RunStrands words l) ∧
      (∀ l, w.RunStrands words l →
        ¬ w.HasEntry l ∧ (w.afterRun words environment).HasEntry l) ∧
      ((∀ l, (w.afterRun words environment).HasEntry l → w.HasEntry l ∨ w.RunNames words l) ↔
        ∀ l, w.RunStrands words l → w.RunNames words l) := by
  obtain ⟨left, hgrows, hleft⟩ := grows_afterRun words environment w
  have hnew : ∀ l, (w.afterRun words environment).HasEntry l →
      w.HasEntry l ∨ w.RunNames words l ∨ w.RunStrands words l :=
    fun l hl => (hgrows.new l hl).imp_right (.imp_right (hleft l).mp)
  have hstranded : ∀ l, w.RunStrands words l →
      ¬ w.HasEntry l ∧ (w.afterRun words environment).HasEntry l :=
    fun l hl => hgrows.stranded l ((hleft l).mpr hl)
  refine ⟨hgrows.kept, hnew, hstranded, fun h l hl => ?_, fun h l hl => ?_⟩
  · obtain ⟨hfree, hentry⟩ := hstranded l hl
    exact (h l hentry).resolve_left hfree
  · rcases hnew l hl with hl | hl | hl
    · exact .inl hl
    · exact .inr hl
    · exact .inr (h l hl)

/-- An output whose path ends in dots cannot be moved to, and the temporary file for it stays. -/
theorem runProgram_strands :
    let w : World := { files := ⟨[(["m.toml"], .file "".toByteArray), (["h"], .directory)]⟩ }
    let words := ["gen-attrs", "-i", "m.toml", "-o", "h/.."]
    ∃ l, (w.afterRun words none).HasEntry l ∧ ¬ w.HasEntry l ∧ ¬ w.RunNames words l := by
  intro w words
  refine ⟨["h", ".tmpXXXXXX"], ?_, ?_, ?_⟩
  · have hrun : ((w.afterRun words none).files.node? ["h", ".tmpXXXXXX"]).isSome = true := by
      decide +kernel
    exact Option.isSome_iff_ne_none.mp hrun
  · exact fun h => h (by decide +kernel)
  · have hread : (CommandLine.read words).toOption =
        some ⟨0, .generate { input := some ⟨"m.toml"⟩, output := some ⟨"h/.."⟩ }⟩ := by
      decide +kernel
    have hroot : w.files.locate w.working ⟨"h/.."⟩ = .ok [] := rfl
    rintro ⟨request, hrequest, generation, s, hcommand, hsettings, path, hpath, hlocate⟩
    rw [hrequest] at hread
    cases hread
    cases hcommand
    cases hsettings
    rcases hpath with ⟨⟨⟩⟩ | ⟨⟨⟩⟩
    cases hroot.symm.trans hlocate

end World

end AttributeTables
