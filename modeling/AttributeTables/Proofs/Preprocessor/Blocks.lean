import AttributeTables.Proofs.Preprocessor.Run

/-!
# Blocks between conditionals

Conditionals are balanced if each one that is opened is closed again, and nothing else is. Lines with
balanced conditionals leave no trace where they are skipped, so a block under a conditional counts
either as a whole or not at all.
-/

namespace AttributeTables.Preprocessor

variable {α : Type}

/-! ## Balance -/

def Line.opens : Line → Bool
  | .directive (.ifDefined _) | .directive (.ifUndefined _) => true
  | _ => false

/-- The line can be read, and it neither opens nor closes a conditional. -/
def Line.isPlain : Line → Bool
  | .blank | .text | .directive (.define ..) | .directive (.undefine _) => true
  | _ => false

inductive Balanced : List String → Prop
  | nil : Balanced []
  | plain {line : String} (h : (Line.ofString line).isPlain = true) : Balanced [line]
  | append {xs ys : List String} (hxs : Balanced xs) (hys : Balanced ys) : Balanced (xs ++ ys)
  | conditional {opening closing : String} {body : List String}
      (hopening : (Line.ofString opening).opens = true) (hbody : Balanced body)
      (hclosing : Line.ofString closing = .directive .endif) :
      Balanced (opening :: (body ++ [closing]))

namespace Balanced

theorem plains {lines : List String} (h : ∀ line ∈ lines, (Line.ofString line).isPlain = true) :
    Balanced lines := by
  induction lines with
  | nil => exact .nil
  | cons line lines ih =>
      obtain ⟨hline, hlines⟩ := List.forall_mem_cons.mp h
      exact .append (.plain hline) (ih hlines)

theorem texts {lines : List String} (h : ∀ line ∈ lines, Line.ofString line = .text) :
    Balanced lines := by
  refine plains fun line hline => ?_
  rw [h line hline]
  rfl

theorem flatMap {ι : Type} {l : List ι} {lines : ι → List String} (h : ∀ i ∈ l, Balanced (lines i)) :
    Balanced (l.flatMap lines) := by
  induction l with
  | nil => exact .nil
  | cons i l ih =>
      obtain ⟨hi, hl⟩ := List.forall_mem_cons.mp h
      exact .append hi (ih hl)

theorem default {guard define endif blank name body : String} {parameters : List String}
    (hguard : Line.ofString guard = .directive (.ifUndefined name))
    (hdefine : Line.ofString define = .directive (.define name parameters body))
    (hendif : Line.ofString endif = .directive .endif) (hblank : Line.ofString blank = .blank) :
    Balanced [guard, define, endif, blank] := by
  have hopens : (Line.ofString guard).opens = true := by rw [hguard]; rfl
  have hdefines : (Line.ofString define).isPlain = true := by rw [hdefine]; rfl
  have hends : (Line.ofString blank).isPlain = true := by rw [hblank]; rfl
  exact .append (.conditional hopens (.plain hdefines) hendif) (.plain hends)

end Balanced

/-! ## Skipped lines -/

namespace State

theorem step_opening {line : String} (h : (Line.ofString line).opens = true) (s : State α) :
    ∃ holds, s.step line = some (s.push holds) := by
  cases hline : Line.ofString line with
  | directive d =>
      rw [step_directive hline]
      cases d with
      | ifDefined name => exact ⟨_, rfl⟩
      | ifUndefined name => exact ⟨_, rfl⟩
      | endif => rw [hline] at h; cases h
      | define name parameters body => rw [hline] at h; cases h
      | undefine name => rw [hline] at h; cases h
  | blank => rw [hline] at h; cases h
  | text => rw [hline] at h; cases h
  | unknown => rw [hline] at h; cases h

theorem step_of_inactive {line : String} (h : (Line.ofString line).isPlain = true) {s : State α}
    (hs : s.isActive = false) : s.step line = some s := by
  cases hline : Line.ofString line with
  | blank => exact step_blank hline s
  | text => rw [step_text hline, hs, if_neg Bool.false_ne_true]
  | unknown => rw [hline] at h; cases h
  | directive d =>
      rw [step_directive hline]
      cases d with
      | define name parameters body => simp [follow, hs]
      | undefine name => simp [follow, hs]
      | ifDefined name => rw [hline] at h; cases h
      | ifUndefined name => rw [hline] at h; cases h
      | endif => rw [hline] at h; cases h

/-- A state in which a conditional was opened is another one without it. -/
theorem exists_push_eq {v : State α} {holds : Bool} {outer : List Bool}
    (h : v.conditions = holds :: outer) : ∃ t : State α, v = t.push holds ∧ t.conditions = outer := by
  refine ⟨{ v with conditions := outer }, ?_, rfl⟩
  rw [push, ← h]

theorem run_singleton (s : State α) (line : String) : s.run [line] = s.step line := by
  rw [run_cons]
  cases s.step line <;> rfl

theorem run_of_inactive {lines : List String} (h : Balanced lines) {s : State α}
    (hs : s.isActive = false) : s.run lines = some s := by
  induction h generalizing s with
  | nil => rfl
  | plain h => rw [run_singleton, step_of_inactive h hs]
  | append _ _ ihxs ihys => rw [run_append, ihxs hs, Option.bind_some, ihys hs]
  | conditional hopening _ hclosing ih =>
      obtain ⟨holds, hstep⟩ := step_opening hopening s
      have hpushed : (s.push holds).isActive = false := by
        rw [isActive_push, hs, Bool.and_false]
      rw [run_cons, hstep, Option.bind_some, run_append, ih hpushed, Option.bind_some,
        run_singleton, step_directive hclosing, follow_endif_push]

/-! ## Lines that are not skipped -/

def keptLines (s : State α) : List String := s.kept.map (·.1)

@[simp] theorem keptLines_keep (s : State α) (lines : List String) :
    (s.keep lines).keptLines = s.keptLines ++ lines := by
  simp [keptLines, keep, Function.comp_def]

@[simp] theorem keptLines_undefine (s : State α) (name : String) :
    (s.undefine name).keptLines = s.keptLines := rfl

@[simp] theorem keptLines_default (s : State α) (name : String) (meaning : Meaning α) :
    (s.default name meaning).keptLines = s.keptLines := by
  rw [keptLines, kept_default]
  rfl

end State

def textLines (lines : List String) : List String := lines.filter (Line.ofString · = .text)

theorem textLines_append (xs ys : List String) :
    textLines (xs ++ ys) = textLines xs ++ textLines ys :=
  List.filter_append xs ys

theorem textLines_of_text {lines : List String} (h : ∀ line ∈ lines, Line.ofString line = .text) :
    textLines lines = lines :=
  List.filter_eq_self.mpr fun line hline => decide_eq_true (h line hline)

/-- Going through the lines leads from one state to another one with the same open conditionals. Their
texts are kept, and of the macros only some may have changed. -/
structure Passed (touched lines : List String) (s t : State α) : Prop where
  run : s.run lines = some t
  conditions : t.conditions = s.conditions
  keptLines : t.keptLines = s.keptLines ++ textLines lines
  lookup : ∀ name ∉ touched, t.macros.lookup name = s.macros.lookup name

namespace Passed

variable {touched xs ys : List String} {s t u : State α}

theorem isActive (h : Passed touched xs s t) : t.isActive = s.isActive := by
  rw [State.isActive, h.conditions, State.isActive]

theorem isDefined (h : Passed touched xs s t) {name : String} (hname : name ∉ touched) :
    t.isDefined name = s.isDefined name := by
  rw [State.isDefined, h.lookup name hname, State.isDefined]

theorem append (hxs : Passed touched xs s t) (hys : Passed touched ys t u) :
    Passed touched (xs ++ ys) s u where
  run := by rw [State.run_append, hxs.run, Option.bind_some, hys.run]
  conditions := hys.conditions.trans hxs.conditions
  keptLines := by rw [hys.keptLines, hxs.keptLines, textLines_append, List.append_assoc]
  lookup name hname := (hys.lookup name hname).trans (hxs.lookup name hname)

theorem nil (touched : List String) (s : State α) : Passed touched [] s s where
  run := rfl
  conditions := rfl
  keptLines := (List.append_nil _).symm
  lookup _ _ := rfl

theorem texts (touched : List String) {lines : List String}
    (h : ∀ line ∈ lines, Line.ofString line = .text) (hs : s.isActive = true) :
    Passed touched lines s (s.keep lines) where
  run := by rw [State.run_text h, if_pos hs]
  conditions := rfl
  keptLines := by rw [State.keptLines_keep, textLines_of_text h]
  lookup _ _ := rfl

theorem undefine {line name : String} (hline : Line.ofString line = .directive (.undefine name))
    (hname : name ∈ touched) (hs : s.isActive = true) :
    Passed touched [line] s (s.undefine name) where
  run := by
    rw [State.run_singleton, State.step_directive hline, State.follow, hs]
    rfl
  conditions := rfl
  keptLines := by
    have htexts : textLines [line] = [] := List.filter_cons_of_neg (by simp [hline])
    rw [htexts, List.append_nil, State.keptLines_undefine]
  lookup other hother := by
    have hne : other ≠ name := fun heq => hother (heq ▸ hname)
    rw [State.undefine, Macros.lookup_erase, if_pos (bne_iff_ne.mpr hne)]

end Passed

/-- Wherever they are not skipped, the lines can be gone through. -/
def Passable (α : Type) (touched lines : List String) : Prop :=
  ∀ s : State α, s.isActive = true → ∃ t, Passed touched lines s t

namespace Passable

variable {touched xs ys : List String}

theorem append (hxs : Passable α touched xs) (hys : Passable α touched ys) :
    Passable α touched (xs ++ ys) := by
  intro s hs
  obtain ⟨t, ht⟩ := hxs s hs
  obtain ⟨u, hu⟩ := hys t (ht.isActive.trans hs)
  exact ⟨u, ht.append hu⟩

theorem blank {line : String} (h : Line.ofString line = .blank) : Passable α touched [line] := by
  have htexts : textLines [line] = [] := List.filter_cons_of_neg (by simp [h])
  intro s _
  refine ⟨s, ?_, rfl, ?_, fun _ _ => rfl⟩
  · rw [State.run_singleton, State.step_blank h]
  · rw [htexts, List.append_nil]

theorem texts (touched : List String) {lines : List String}
    (h : ∀ line ∈ lines, Line.ofString line = .text) : Passable α touched lines :=
  fun _ hs => ⟨_, Passed.texts touched h hs⟩

theorem undefine {line name : String} (hline : Line.ofString line = .directive (.undefine name))
    (hname : name ∈ touched) : Passable α touched [line] :=
  fun _ hs => ⟨_, Passed.undefine hline hname hs⟩

theorem flatMap {ι : Type} {l : List ι} {lines : ι → List String}
    (h : ∀ i ∈ l, Passable α touched (lines i)) : Passable α touched (l.flatMap lines) := by
  induction l with
  | nil => exact fun s _ => ⟨s, Passed.nil touched s⟩
  | cons i l ih =>
      obtain ⟨hi, hl⟩ := List.forall_mem_cons.mp h
      exact hi.append (ih hl)

theorem default {guard define endif blank name body : String} {parameters : List String}
    (hguard : Line.ofString guard = .directive (.ifUndefined name))
    (hdefine : Line.ofString define = .directive (.define name parameters body))
    (hendif : Line.ofString endif = .directive .endif) (hblank : Line.ofString blank = .blank)
    (hname : name ∈ touched) : Passable α touched [guard, define, endif, blank] := by
  intro s hs
  refine ⟨s.default name (.replacement parameters body), ?_, ?_, ?_, fun other hother => ?_⟩
  · rw [State.run_default hguard hdefine hendif hblank, if_pos hs]
  · exact s.conditions_default name _
  · have htexts : textLines [guard, define, endif, blank] = [] := by
      simp [textLines, hguard, hdefine, hendif, hblank]
    rw [htexts, List.append_nil, State.keptLines_default]
  · exact s.lookup_default_of_ne _ fun heq => hother (heq ▸ hname)

end Passable

/-! ## Inclusions -/

namespace State

def supply (s : State α) (given : List (String × α)) : State α :=
  { s with macros := given.map (fun p => (p.1, .action p.2)) ++ s.macros }

theorem isDefined_supply (s : State α) (given : List (String × α)) (name : String) :
    (s.supply given).isDefined name = ((given.lookup name).isSome || s.isDefined name) := by
  rw [isDefined, supply, List.lookup_append, lookup_map_value, Option.isSome_or, Option.isSome_map,
    isDefined]

/-- The consumer defines some more macros and then includes a text. -/
def inclusion (text : String) (s : State α) (given : List (String × α)) : Option (State α) :=
  (s.supply given).run (Text.readLines text)

def inclusions (text : String) (s : State α) (givens : List (List (String × α))) :
    Option (State α) :=
  givens.foldlM (inclusion text) s

theorem inclusions_cons (text : String) (s : State α) (given : List (String × α))
    (givens : List (List (String × α))) :
    s.inclusions text (given :: givens) = (s.inclusion text given).bind (·.inclusions text givens) :=
  rfl

/-- What every inclusion keeps holds after any number of them, and there is always a next one. -/
theorem exists_inclusions {text : String} {P : State α → Prop}
    (hstep : ∀ s given, P s → ∃ t, inclusion text s given = some t ∧ P t) {s : State α}
    (hs : P s) (givens : List (List (String × α))) :
    ∃ t, s.inclusions text givens = some t ∧ P t := by
  induction givens generalizing s with
  | nil => exact ⟨s, rfl, hs⟩
  | cons given givens ih =>
      obtain ⟨t, ht, hP⟩ := hstep s given hs
      rw [inclusions_cons, ht, Option.bind_some]
      exact ih hP

end State

end AttributeTables.Preprocessor
