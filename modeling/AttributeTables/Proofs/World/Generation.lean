import AttributeTables.Program
import AttributeTables.Proofs.World.Publication

/-!
# Generations

What can become of a world when tables are generated in it: the manifest is read, the text is
published, and then the dependency file is written. Each of these can fail on its own.
-/

namespace AttributeTables

variable {w w' : World} {s : Settings} {path output : Path} {text : String} {f : Failure}

namespace World

/-! ## Texts of tables -/

/-- The registry of the manifest under a path. -/
def manifest (w : World) (path : Path) : Except Failure Registry :=
  match w.readText path with
  | .error fault => .error (.input fault)
  | .ok source => (Manifest.load path.text source).mapError .manifest

/-- The text of the tables for the settings. -/
def tables (w : World) (s : Settings) : Except Failure String :=
  match w.manifest s.input with
  | .error f => .error f
  | .ok registry => (Output.generate registry.catalogue s.emit).mapError .output

theorem manifest_congr (h : w'.readText path = w.readText path) :
    w'.manifest path = w.manifest path := by
  rw [manifest, manifest, h]

theorem tables_congr (h : w'.readText s.input = w.readText s.input) : w'.tables s = w.tables s := by
  rw [tables, tables, manifest_congr h]

theorem leftover?_of_manifest (h : w.manifest path = .error f) : f.leftover? = none := by
  rw [manifest] at h
  split at h
  · cases h
    rfl
  · obtain ⟨e, -, rfl⟩ := mapError_eq_error_iff.mp h
    rfl

theorem leftover?_of_tables (h : w.tables s = .error f) : f.leftover? = none := by
  rw [tables] at h
  split at h
  case h_1 hmanifest =>
    cases h
    exact leftover?_of_manifest hmanifest
  case h_2 =>
    obtain ⟨e, -, rfl⟩ := mapError_eq_error_iff.mp h
    rfl

theorem outcome_reportAll (records : List Log.Record) (w : World) :
    ∃ w', Task.outcome (Host.reportAll records) w = (.ok (), w') ∧ w.SameFiles w' := by
  induction records generalizing w with
  | nil => exact ⟨w, rfl, .refl w⟩
  | cons r rest ih =>
      obtain ⟨w', houtcome, hsame⟩ := ih (w.report r)
      rw [Host.reportAll, Task.outcome_bind, Task.outcome_report]
      exact ⟨w', houtcome, (w.sameFiles_report r).trans hsame⟩

theorem outcome_loadManifest (path : Path) (w : World) :
    ∃ w', Task.outcome (loadManifest path) w = (w.manifest path, w') ∧ w.SameFiles w' := by
  rw [loadManifest, Task.outcome_bind, outcome_readText, manifest]
  dsimp only
  cases w.readText path with
  | error fault => exact ⟨w, rfl, .refl w⟩
  | ok source =>
      obtain ⟨w', houtcome, hsame⟩ := outcome_reportAll (Manifest.loadRecords path.text source) w
      dsimp only
      rw [Task.outcome_bind, houtcome]
      dsimp only
      cases Manifest.load path.text source <;> exact ⟨w', rfl, hsame⟩

/-! ## What a generation comes to -/

/-- Everything that a generation does after the text is there. -/
def deliver (s : Settings) (text : String) : Task (StateM World) Published := do
  let published ← publish s.output text s.mode
  match s.depfile, s.output with
  | some depfile, some output =>
    if s.mode != .check then writeDepfile depfile output [s.input]
    return published
  | _, _ => return published

theorem outcome_generateTables (s : Settings) (w : World) :
    ∃ w', w.SameFiles w' ∧ Task.outcome (generateTables s) w =
      match w.tables s with
      | .error f => (.error f, w')
      | .ok text => Task.outcome (deliver s text) w' := by
  obtain ⟨w₁, hload, hsame₁⟩ := outcome_loadManifest s.input w
  rw [generateTables, Task.outcome_bind, hload, tables]
  cases w.manifest s.input with
  | error f => exact ⟨w₁, hsame₁, rfl⟩
  | ok registry =>
      obtain ⟨w₂, hreport, hsame₂⟩ :=
        outcome_reportAll (Output.generationRecords registry.catalogue s.emit) w₁
      refine ⟨w₂, hsame₁.trans hsame₂, ?_⟩
      dsimp only
      rw [Task.outcome_bind, hreport]
      dsimp only
      cases Output.generate registry.catalogue s.emit <;> rfl

/-- What can become of a world when a text is published under the output, and then the rule under the
dependency file. -/
inductive Filing (w : World) (s : Settings) (text : String) (output : Path) :
    Except Failure Published → World → Prop where
  | unpublished {f : Failure} {w' : World}
      (publication : w.Publication output text s.mode (.error f) w') :
      Filing w s text output (.error f) w'
  | published {p : Published} {w' : World} (unruled : s.depfile = none ∨ s.mode = .check)
      (publication : w.Publication output text s.mode (.ok p) w') :
      Filing w s text output (.ok p) w'
  | ruled {depfile : Path} {p : Published} {w₁ : World} {r : Except Failure Published}
      {w' : World} (hdepfile : s.depfile = some depfile) (mode : s.mode ≠ .check)
      (publication : w.Publication output text s.mode (.ok p) w₁)
      (replacement : w₁.Replacement depfile (Depfile.rule output [s.input]) p r w') :
      Filing w s text output r w'

/-- What can become of a world when a text is delivered as the settings say. -/
inductive Delivery (w : World) (s : Settings) (text : String) :
    Except Failure Published → World → Prop where
  | printed {w' : World} (houtput : s.output = none) (mode : s.mode ≠ .check)
      (same : w.SameFiles w') : Delivery w s text (.ok .printed) w'
  | unprinted {f : Failure} {w' : World} (houtput : s.output = none)
      (nothing : f.leftover? = none) (same : w.SameFiles w') : Delivery w s text (.error f) w'
  | filed {output : Path} {r : Except Failure Published} {w' : World}
      (houtput : s.output = some output) (filing : w.Filing s text output r w') :
      Delivery w s text r w'

/-- What can become of a world when tables are generated in it. -/
inductive Generation (w : World) (s : Settings) : Except Failure Published → World → Prop where
  | failed {f : Failure} {w' : World} (tables : w.tables s = .error f) (same : w.SameFiles w') :
      Generation w s (.error f) w'
  | delivered {text : String} {r : Except Failure Published} {w' : World}
      (tables : w.tables s = .ok text) (delivery : w.Delivery s text r w') : Generation w s r w'

theorem Filing.of_sameFiles {r : Except Failure Published} {w'' : World} (h : w.SameFiles w')
    (hf : w'.Filing s text output r w'') : w.Filing s text output r w'' := by
  cases hf with
  | unpublished publication => exact .unpublished (publication.of_sameFiles h)
  | published unruled publication => exact .published unruled (publication.of_sameFiles h)
  | ruled hdepfile mode publication replacement =>
      exact .ruled hdepfile mode (publication.of_sameFiles h) replacement

theorem Delivery.of_sameFiles {r : Except Failure Published} {w'' : World} (h : w.SameFiles w')
    (hd : w'.Delivery s text r w'') : w.Delivery s text r w'' := by
  cases hd with
  | printed houtput mode same => exact .printed houtput mode (h.trans same)
  | unprinted houtput nothing same => exact .unprinted houtput nothing (h.trans same)
  | filed houtput filing => exact .filed houtput (filing.of_sameFiles h)

theorem SameFiles.tables_eq (h : w.SameFiles w') (s : Settings) : w'.tables s = w.tables s :=
  tables_congr (h.readText_eq s.input)

theorem Generation.of_sameFiles {r : Except Failure Published} {w'' : World} (h : w.SameFiles w')
    (hg : w'.Generation s r w'') : w.Generation s r w'' := by
  cases hg with
  | failed tables same => exact .failed ((h.tables_eq s).symm.trans tables) (h.trans same)
  | delivered tables delivery =>
      exact .delivered ((h.tables_eq s).symm.trans tables) (delivery.of_sameFiles h)

theorem delivery_deliver_of_none (houtput : s.output = none) (w : World) :
    ∃ r w', Task.outcome (deliver s text) w = (r, w') ∧ w.Delivery s text r w' := by
  rw [deliver, houtput, publish]
  by_cases hmode : s.mode = .check
  · rw [if_pos (by simpa using hmode)]
    exact ⟨_, w, rfl, .unprinted houtput rfl (.refl w)⟩
  · have hsame := w.sameFiles_print text
    rw [if_neg (by simpa using hmode), Task.outcome_bind, Task.outcome_bind, Task.outcome_print]
    rcases hprint : w.print text with ⟨fault | u, w'⟩ <;> rw [hprint] at hsame
    · exact ⟨_, w', rfl, .unprinted houtput rfl hsame⟩
    · refine ⟨.ok .printed, w', ?_, .printed houtput hmode hsame⟩
      cases s.depfile <;> rfl

theorem filing_deliver (houtput : s.output = some output) (w : World) :
    ∃ r w', Task.outcome (deliver s text) w = (r, w') ∧ w.Filing s text output r w' := by
  obtain ⟨r, w₁, hpublish, hpublication⟩ := publication_publishFile w output text s.mode
  rw [deliver, houtput, Task.outcome_bind, publish, hpublish]
  cases r with
  | error f => exact ⟨_, _, rfl, .unpublished hpublication⟩
  | ok p =>
      dsimp only
      cases hdepfile : s.depfile with
      | none => exact ⟨_, _, rfl, .published (.inl hdepfile) hpublication⟩
      | some depfile =>
          dsimp only
          by_cases hmode : s.mode = .check
          · rw [if_neg (by simpa using hmode)]
            exact ⟨_, _, rfl, .published (.inr hmode) hpublication⟩
          · rw [if_pos (by simpa using hmode)]
            obtain ⟨r, w', hrule, hreplacement⟩ :=
              replacement_writeDepfile w₁ depfile output [s.input] p
            exact ⟨r, w', hrule, .ruled hdepfile hmode hpublication hreplacement⟩

theorem delivery_deliver (s : Settings) (text : String) (w : World) :
    ∃ r w', Task.outcome (deliver s text) w = (r, w') ∧ w.Delivery s text r w' := by
  cases houtput : s.output with
  | none => exact delivery_deliver_of_none houtput w
  | some output =>
      obtain ⟨r, w', houtcome, hfiling⟩ := filing_deliver houtput w
      exact ⟨r, w', houtcome, .filed houtput hfiling⟩

theorem generation_generateTables (s : Settings) (w : World) :
    ∃ r w', Task.outcome (generateTables s) w = (r, w') ∧ w.Generation s r w' := by
  obtain ⟨w₁, hsame, houtcome⟩ := outcome_generateTables s w
  rw [houtcome]
  cases htables : w.tables s with
  | error f => exact ⟨_, _, rfl, .failed htables hsame⟩
  | ok text =>
      obtain ⟨r, w', hdeliver, hr⟩ := delivery_deliver s text w₁
      exact ⟨r, w', hdeliver, .delivered htables (hr.of_sameFiles hsame)⟩

/-- With a text and an output, a generation comes down to its files. -/
theorem Generation.filing {r : Except Failure Published} (h : w.Generation s r w')
    (htables : w.tables s = .ok text) (houtput : s.output = some output) :
    w.Filing s text output r w' := by
  cases h with
  | failed tables same => cases htables.symm.trans tables
  | delivered tables delivery =>
      cases htables.symm.trans tables
      cases delivery with
      | printed hnone mode same => cases houtput.symm.trans hnone
      | unprinted hnone nothing same => cases houtput.symm.trans hnone
      | filed hsome filing =>
          cases houtput.symm.trans hsome
          exact filing

theorem Generation.exists_text {p : Published} (h : w.Generation s (.ok p) w') :
    ∃ text, w.tables s = .ok text := by
  cases h with
  | delivered tables delivery => exact ⟨_, tables⟩

end World

end AttributeTables
