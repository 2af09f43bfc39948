import AttributeTables.Proofs.Output.Texts
import AttributeTables.Proofs.Preprocessor.Run
import AttributeTables.Proofs.Registry.History

/-!
# Callbacks of the name tables

What a preprocessor makes of the name tables, whatever macros the consumer has defined: one callback
for each attribute, group by group, and no macro of the tables left.
-/

namespace AttributeTables.Output

open Preprocessor

variable {α : Type} {given : List (String × α)} {k : Catalogue}

/-! ## Lines -/

theorem ofString_invocation (g : NameGroup) (d : Definition) :
    Line.ofString (invocation g.callback d) = .text := by
  have hline : (invocation g.callback d).toList =
      g.callback.toList ++ ("(" ++ d.name ++ "," ++ d.display ++ ")").toList := by
    simp [invocation]
  exact Line.ofString_eq_text (isIdentifier_callback g) hline

theorem ofString_ifUndefined (g : NameGroup) :
    Line.ofString ("#ifndef " ++ g.callback) = .directive (.ifUndefined g.callback) := by
  cases g <;> rfl

theorem ofString_undefine (g : NameGroup) :
    Line.ofString ("#undef " ++ g.callback) = .directive (.undefine g.callback) := by
  cases g <;> rfl

theorem ofString_define (g : NameGroup) :
    Line.ofString ("#define " ++ g.callback ++ "(FIRST, SECOND) " ++ fallbackCallback ++
        "(FIRST, SECOND)") =
      .directive (.define g.callback ["FIRST", "SECOND"] "ATTRIBUTE_ALL(FIRST, SECOND)") := by
  cases g <;> rfl

/-! ## One group -/

/-- What comes of the invocation for an attribute: the consumer's own callback, or else the common
one, gets the name and the display string. -/
def delivered (given : List (String × α)) (callback : String) (d : Definition) : Expansion α :=
  match (given.lookup callback).or (given.lookup "ATTRIBUTE_ALL") with
  | some a => .callback a [d.name, d.display]
  | none => .nothing

/-- The default of a callback: the common one gets the same arguments. -/
def forwarding : Meaning α := .replacement ["FIRST", "SECOND"] "ATTRIBUTE_ALL(FIRST, SECOND)"

theorem run_groupLines (g : NameGroup) (s : State α) :
    s.run (groupLines k g) =
      some (if s.isActive then
        ((s.default g.callback forwarding).keep
          ((groupMembers k g).map (invocation g.callback))).undefine g.callback
      else s) := by
  have htext : ∀ line ∈ (groupMembers k g).map (invocation g.callback),
      Line.ofString line = .text :=
    List.forall_mem_map.mpr fun d _ => ofString_invocation g d
  have hundefine : ∀ s : State α, s.run ["#undef " ++ g.callback, ""] =
      some (if s.isActive then s.undefine g.callback else s) := by
    intro s
    rw [State.run_cons, State.step_directive (ofString_undefine g), State.follow, Option.bind_some,
      State.run_cons, State.step_blank rfl]
    rfl
  rw [groupLines, State.run_append, State.run_append,
    State.run_default (ofString_ifUndefined g) (ofString_define g) rfl rfl, Option.bind_some,
    State.run_text htext, Option.bind_some, hundefine]
  cases hs : s.isActive with
  | false => simp [hs]
  | true => simp [hs, forwarding]

/-- What the common callback stands for: nothing comes of it unless the consumer has defined it. -/
def fallback (given : List (String × α)) : Meaning α :=
  ((given.lookup "ATTRIBUTE_ALL").map .action).getD (.replacement ["FIRST", "SECOND"] "")

theorem toList_substitute_forwarding (name display : String) :
    (substitute (["FIRST", "SECOND"].zip [name, display]) "ATTRIBUTE_ALL(FIRST, SECOND)").toList =
      "ATTRIBUTE_ALL".toList ++ '(' :: (name.toList ++ ',' :: ([' '] ++ display.toList) ++ [')']) := by
  have hwords : (substitute (["FIRST", "SECOND"].zip [name, display])
      "ATTRIBUTE_ALL(FIRST, SECOND)").toList =
      "ATTRIBUTE_ALL".toList ++ (['('] ++ (name.toList ++ ([','] ++ ([' '] ++
        (display.toList ++ ([')'] ++ [])))))) := by
    rw [substitute, String.toList_ofList]
    rfl
  rw [hwords]
  simp only [List.append_nil, List.append_assoc, List.cons_append, List.nil_append]

theorem callback_ne_common (g : NameGroup) : "ATTRIBUTE_ALL" ≠ g.callback := by
  cases g <;> decide

section Expanded

variable {m : Macros α} (hcommon : m.lookup "ATTRIBUTE_ALL" = some (fallback given))
  {d : Definition} (hname : Text.IsIdentifier d.name) (hdisplay : IsArgument d.display)
include hcommon hname hdisplay

theorem expand_forwarded {line : String} (hline : line.toList =
      "ATTRIBUTE_ALL".toList ++ '(' :: (d.name.toList ++ ',' :: ([' '] ++ d.display.toList) ++ [')'])) :
    expand m line = match given.lookup "ATTRIBUTE_ALL" with
      | some a => .callback a [d.name, d.display]
      | none => .nothing := by
  have hidentifier : Text.IsIdentifier "ATTRIBUTE_ALL" := by decide
  have htext : Line.ofString line ≠ .blank := by
    rw [Line.ofString_eq_text hidentifier hline]
    exact nofun
  have hcall := Invocation.ofLine?_attribute hname hdisplay hidentifier [' '] (by simp) hline
  rw [fallback] at hcommon
  cases hgiven : given.lookup "ATTRIBUTE_ALL" with
  | some a =>
      rw [hgiven] at hcommon
      exact expand_action htext hcall hcommon
  | none =>
      rw [hgiven] at hcommon
      rw [expand_replacement htext hcall hcommon rfl]
      exact expand_blank rfl

theorem expand_invocation {g : NameGroup} {s : State α} (hs : s.macros = m)
    (hcallback : m.lookup g.callback = (given.lookup g.callback).map .action) :
    expand (s.default g.callback forwarding).macros (invocation g.callback d) =
      delivered given g.callback d := by
  have htext : Line.ofString (invocation g.callback d) ≠ .blank := by
    rw [ofString_invocation]
    exact nofun
  have hcall := Invocation.ofLine?_invocation hname hdisplay g
  rw [delivered, State.default, State.isDefined, hs, hcallback]
  cases hgiven : given.lookup g.callback with
  | some a =>
      rw [hgiven] at hcallback
      exact expand_action htext hcall (hs ▸ hcallback)
  | none =>
      have hdefined : (s.define g.callback forwarding).macros = (g.callback, forwarding) :: m := by
        rw [State.define, hs]
      have hlookup : List.lookup g.callback ((g.callback, forwarding) :: m) = some forwarding :=
        List.lookup_cons_self
      have herased : (Macros.erase ((g.callback, forwarding) :: m) g.callback).lookup
          "ATTRIBUTE_ALL" = some (fallback given) := by
        have hne : ("ATTRIBUTE_ALL" == g.callback) = false := by simp [callback_ne_common g]
        rw [Macros.lookup_erase, bne, hne, List.lookup_cons, hne]
        exact hcommon
      rw [Option.map_none, Option.isSome_none, if_neg Bool.false_ne_true, hdefined, Option.none_or,
        expand_replacement htext hcall hlookup rfl]
      exact expand_forwarded herased hname hdisplay (toList_substitute_forwarding _ _)

end Expanded

/-! ## All groups -/

def deliveries (given : List (String × α)) (k : Catalogue) (g : NameGroup) :
    List (String × Expansion α) :=
  (groupMembers k g).map fun d => (invocation g.callback d, delivered given g.callback d)

section Groups

variable (hvalid : ∀ g, ∀ d ∈ groupMembers k g, Text.IsIdentifier d.name ∧ IsArgument d.display)
include hvalid

/-- A group delivers its attributes, and its callback is gone afterwards. -/
theorem run_group {g : NameGroup} {s : State α} (hactive : s.isActive = true)
    (hcommon : s.macros.lookup "ATTRIBUTE_ALL" = some (fallback given))
    (hcallback : s.macros.lookup g.callback = (given.lookup g.callback).map .action) :
    s.run (groupLines k g) = some { s with
      macros := s.macros.erase g.callback
      kept := s.kept ++ deliveries given k g } := by
  have hexpand : (((groupMembers k g).map (invocation g.callback)).map fun line =>
      (line, expand (s.default g.callback forwarding).macros line)) = deliveries given k g := by
    rw [List.map_map, deliveries]
    refine List.map_congr_left fun d hd => ?_
    obtain ⟨hname, hdisplay⟩ := hvalid g d hd
    rw [Function.comp_apply, expand_invocation hcommon hname hdisplay rfl hcallback]
  rw [run_groupLines, if_pos hactive, State.keep, hexpand, State.undefine]
  simp

theorem run_groups {gs : List NameGroup} (hgs : gs.Nodup) {s : State α}
    (hactive : s.isActive = true)
    (hcommon : s.macros.lookup "ATTRIBUTE_ALL" = some (fallback given))
    (hcallback : ∀ g ∈ gs, s.macros.lookup g.callback = (given.lookup g.callback).map .action) :
    s.run (gs.flatMap (groupLines k)) = some { s with
      macros := s.macros.filter (·.1 ∉ gs.map NameGroup.callback)
      kept := s.kept ++ gs.flatMap (deliveries given k) } := by
  induction gs generalizing s with
  | nil => simp
  | cons g gs ih =>
      obtain ⟨hg, hgs⟩ := List.nodup_cons.mp hgs
      obtain ⟨hown, hothers⟩ := List.forall_mem_cons.mp hcallback
      -- The macros that the other groups use are left as they were.
      have hlookup : ∀ name, name ≠ g.callback →
          (s.macros.erase g.callback).lookup name = s.macros.lookup name := by
        intro name hne
        rw [Macros.lookup_erase, if_pos (bne_iff_ne.mpr hne)]
      rw [List.flatMap_cons, State.run_append, run_group hvalid hactive hcommon hown,
        Option.bind_some, ih hgs]
      · have hfilter : (s.macros.erase g.callback).filter (·.1 ∉ gs.map NameGroup.callback) =
            s.macros.filter (·.1 ∉ (g :: gs).map NameGroup.callback) := by
          rw [Macros.erase, List.filter_filter]
          refine List.filter_congr fun p _ => ?_
          rw [Bool.eq_iff_iff]
          simp [and_comm]
        simp only [hfilter, List.append_assoc, List.flatMap_cons]
      · exact hactive
      · exact (hlookup _ (callback_ne_common g)).trans hcommon
      · intro g' hg'
        refine (hlookup _ fun heq => ?_).trans (hothers g' hg')
        exact hg (callback_injective heq ▸ hg')

end Groups

theorem run_groups_of_inactive (gs : List NameGroup) {s : State α} (hs : s.isActive = false) :
    s.run (gs.flatMap (groupLines k)) = some s := by
  induction gs with
  | nil => rfl
  | cons g gs ih =>
      rw [List.flatMap_cons, State.run_append, run_groupLines, hs, if_neg Bool.false_ne_true,
        Option.bind_some, ih]

/-! ## The section -/

theorem ofString_ifDefined_toggle (sec : Section) :
    Line.ofString ("#ifdef " ++ sec.toggle) = .directive (.ifDefined sec.toggle) := by
  cases sec <;> rfl

theorem ofString_undefine_toggle (sec : Section) :
    Line.ofString ("#undef " ++ sec.toggle) = .directive (.undefine sec.toggle) := by
  cases sec <;> rfl

/-- The symbol of a section is looked up and, where it is defined, undefined at once. -/
theorem run_sectionOpening (sec : Section) (s : State α) :
    s.run sec.opening =
      some (if (s.push (s.isDefined sec.toggle)).isActive then
        (s.push (s.isDefined sec.toggle)).undefine sec.toggle
      else s.push (s.isDefined sec.toggle)) := by
  rw [Section.opening, State.run_cons, State.step_directive (ofString_ifDefined_toggle sec),
    State.follow, Option.bind_some, State.run_cons,
    State.step_directive (ofString_undefine_toggle sec), State.follow]
  rfl

theorem run_opening (s : State α) :
    s.run Section.names.opening =
      some (if (s.push (s.isDefined "GET_ATTR_NAMES")).isActive then
        (s.push (s.isDefined "GET_ATTR_NAMES")).undefine "GET_ATTR_NAMES"
      else s.push (s.isDefined "GET_ATTR_NAMES")) :=
  run_sectionOpening .names s

theorem run_common (s : State α) :
    s.run ["#ifndef " ++ fallbackCallback, "#define " ++ fallbackCallback ++ "(FIRST, SECOND)",
        "#endif", ""] =
      some (if s.isActive then
        s.default "ATTRIBUTE_ALL" (.replacement ["FIRST", "SECOND"] "")
      else s) :=
  State.run_default rfl rfl rfl rfl s

theorem run_closing (s : State α) (holds : Bool) :
    (s.push holds).run ["#undef " ++ fallbackCallback, "#endif", ""] =
      some (if (s.push holds).isActive then s.undefine "ATTRIBUTE_ALL" else s) := by
  have hundefine : Line.ofString ("#undef " ++ fallbackCallback) =
      .directive (.undefine "ATTRIBUTE_ALL") := rfl
  have hendif : Line.ofString "#endif" = .directive .endif := rfl
  rw [State.run_cons, State.step_directive hundefine, State.follow, Option.bind_some, State.run_cons,
    State.step_directive hendif]
  cases hactive : (s.push holds).isActive with
  | false => rfl
  | true => rfl

/-- Without its symbol, the section leaves no trace. -/
theorem run_namesLines_of_undefined {s : State α} (hs : s.isDefined "GET_ATTR_NAMES" = false) :
    s.run (namesLines k) = some s := by
  have hinactive : (s.push false).isActive = false := rfl
  rw [namesLines, State.run_append, State.run_append, State.run_append, run_opening, hs, hinactive,
    if_neg Bool.false_ne_true, Option.bind_some, run_common, hinactive, if_neg Bool.false_ne_true,
    Option.bind_some, run_groups_of_inactive _ hinactive, Option.bind_some, run_closing, hinactive,
    if_neg Bool.false_ne_true]

theorem lookup_start (given : List (String × α)) (name : String) :
    (State.start given).macros.lookup name = (given.lookup name).map .action :=
  lookup_map_value Meaning.action given name

/-- What the section starts its groups with, apart from the conditional around it. -/
def opened (given : List (String × α)) : State α :=
  ((State.start given).undefine "GET_ATTR_NAMES").default "ATTRIBUTE_ALL"
    (.replacement ["FIRST", "SECOND"] "")

theorem conditions_opened (given : List (String × α)) : (opened given).conditions = [] := by
  rw [opened, State.conditions_default]
  rfl

theorem kept_opened (given : List (String × α)) : (opened given).kept = [] := by
  rw [opened, State.kept_default]
  rfl

theorem isActive_opened (given : List (String × α)) : ((opened given).push true).isActive = true := by
  rw [State.isActive_push, opened, State.isActive_default]
  rfl

theorem lookup_undefine_start (given : List (String × α)) {name : String}
    (hne : name ≠ "GET_ATTR_NAMES") :
    ((State.start given).undefine "GET_ATTR_NAMES").macros.lookup name =
      (given.lookup name).map .action := by
  rw [State.undefine, Macros.lookup_erase, if_pos (bne_iff_ne.mpr hne), lookup_start]

theorem lookup_common_opened (given : List (String × α)) :
    (opened given).macros.lookup "ATTRIBUTE_ALL" = some (fallback given) := by
  rw [opened, State.lookup_default_self, lookup_undefine_start given (by decide), fallback]

theorem lookup_callback_opened (given : List (String × α)) (g : NameGroup) :
    (opened given).macros.lookup g.callback = (given.lookup g.callback).map .action := by
  rw [opened, State.lookup_default_of_ne _ _ (callback_ne_common g).symm]
  exact lookup_undefine_start given (by cases g <;> decide)

theorem erase_filter_opened (given : List (String × α)) :
    Macros.erase ((opened given).macros.filter (·.1 ∉ NameGroup.all.map NameGroup.callback))
        "ATTRIBUTE_ALL" =
      (given.filter fun p => p.1 ∉ ["GET_ATTR_NAMES", "ATTRIBUTE_ENUM", "ATTRIBUTE_STRBOOL",
        "ATTRIBUTE_COMPLEXSTR", "ATTRIBUTE_ALL"]).map fun p => (p.1, .action p.2) := by
  rw [Macros.erase_filter, opened, State.erase_default, State.undefine, State.start, Macros.erase,
    Macros.erase, List.filter_filter, List.filter_filter, List.filter_map]
  refine congrArg (List.map _) (List.filter_congr fun p _ => ?_)
  rw [Bool.eq_iff_iff]
  simp [NameGroup.all, NameGroup.callback]
  tauto

theorem run_before_groups (hdefined : (State.start given).isDefined "GET_ATTR_NAMES" = true) :
    (State.start given).run (Section.names.opening ++
      ["#ifndef " ++ fallbackCallback, "#define " ++ fallbackCallback ++ "(FIRST, SECOND)",
        "#endif", ""]) = some ((opened given).push true) := by
  have hpushed : ((State.start given).push true).isActive = true := rfl
  have hundefined : (((State.start given).push true).undefine "GET_ATTR_NAMES").isActive = true := rfl
  rw [State.run_append, run_opening, hdefined, if_pos hpushed, Option.bind_some, run_common,
    if_pos hundefined, opened, ← State.default_push]
  rfl

/-- With its symbol, the section delivers all attributes and takes its own macros away. -/
theorem run_namesLines_of_defined
    (hvalid : ∀ g, ∀ d ∈ groupMembers k g, Text.IsIdentifier d.name ∧ IsArgument d.display)
    (hdefined : (State.start given).isDefined "GET_ATTR_NAMES" = true) :
    (State.start given).run (namesLines k) = some
      { macros := (given.filter fun p => p.1 ∉ ["GET_ATTR_NAMES", "ATTRIBUTE_ENUM",
          "ATTRIBUTE_STRBOOL", "ATTRIBUTE_COMPLEXSTR", "ATTRIBUTE_ALL"]).map
            fun p => (p.1, .action p.2)
        kept := NameGroup.all.flatMap (deliveries given k) } := by
  obtain ⟨after, hafter⟩ : ∃ after : State α, after = { opened given with
      macros := (opened given).macros.filter (·.1 ∉ NameGroup.all.map NameGroup.callback)
      kept := (opened given).kept ++ NameGroup.all.flatMap (deliveries given k) } := ⟨_, rfl⟩
  have hgroups : ((opened given).push true).run (NameGroup.all.flatMap (groupLines k)) =
      some (after.push true) := by
    rw [hafter]
    exact run_groups hvalid (by decide) (isActive_opened given) (lookup_common_opened given)
      fun g _ => lookup_callback_opened given g
  have hactive : (after.push true).isActive = true := by
    rw [hafter]
    exact isActive_opened given
  rw [namesLines, State.run_append, State.run_append, run_before_groups hdefined, Option.bind_some,
    hgroups, Option.bind_some, run_closing, if_pos hactive, hafter, State.undefine,
    erase_filter_opened, conditions_opened, kept_opened, List.nil_append]

/-- Whatever macros the consumer has defined, the name tables of a registry deliver each attribute
once, to its own callback, to the common one or to nothing, and then none of the macros of the
tables is left. Without their symbol the name tables do nothing. -/
theorem names_invoke_callbacks (calls : List Call) (style : Style) (given : List (String × α)) :
    let k := (Registry.ofCalls calls).catalogue
    ∃ text, sectionText k style .names = .ok text ∧
      (given.lookup "GET_ATTR_NAMES" = none →
        (State.start given).run (Text.readLines text) = some (State.start given)) ∧
      (given.lookup "GET_ATTR_NAMES" ≠ none →
        ∃ after, (State.start given).run (Text.readLines text) = some after ∧
          after.kept.map (·.2) =
            k.codeBearing.map (delivered given "ATTRIBUTE_ENUM") ++
            (k.listed .strBool).map (delivered given "ATTRIBUTE_STRBOOL") ++
            (k.listed .complexStr).map (delivered given "ATTRIBUTE_COMPLEXSTR") ∧
          after.conditions = [] ∧
          after.macros = (given.filter fun p => p.1 ∉ ["GET_ATTR_NAMES", "ATTRIBUTE_ENUM",
            "ATTRIBUTE_STRBOOL", "ATTRIBUTE_COMPLEXSTR", "ATTRIBUTE_ALL"]).map
              fun p => (p.1, .action p.2)) := by
  intro k
  have hwf := Registry.wellFormed_ofCalls calls
  have hlines : Text.readLines (Text.unlines (namesLines k)) = namesLines k :=
    readLines_namesLines hwf
  refine ⟨_, rfl, fun hnone => ?_, fun hsome => ?_⟩
  · rw [hlines]
    refine run_namesLines_of_undefined ?_
    rw [State.isDefined, lookup_start, hnone]
    rfl
  · rw [hlines]
    refine ⟨_, run_namesLines_of_defined (fun _ _ => valid_of_mem_groupMembers hwf) ?_, ?_, rfl, rfl⟩
    · rw [State.isDefined, lookup_start, Option.isSome_map]
      exact Option.isSome_iff_ne_none.mpr hsome
    · simp only [NameGroup.all, List.flatMap_cons, List.flatMap_nil, List.append_nil,
        List.map_append, deliveries, List.map_map, groupMembers, NameGroup.categories]
      rw [List.append_assoc]
      rfl

/-- The consumer has defined the common callback and one other. An attribute is named like a
callback. -/
theorem names_invoke_callbacks_partly_defined :
    let calls : List Call := [.insert ⟨"Text", .strBool, "text", []⟩,
      .insert ⟨"ATTRIBUTE_ENUM", .int, "#define", [⟨32⟩]⟩, .insert ⟨"Hot", .enum, "hot", []⟩,
      .insert ⟨"Hot", .type, "again", []⟩, .insert ⟨"Mode", .complexStr, "mode", []⟩]
    let given : List (String × String) := [("GET_ATTR_NAMES", ""), ("ATTRIBUTE_STRBOOL", "own"),
      ("OTHER", "other"), ("ATTRIBUTE_ALL", "common")]
    given.lookup "GET_ATTR_NAMES" ≠ none ∧
    ∃ text after, sectionText (Registry.ofCalls calls).catalogue .numeric .names = .ok text ∧
      (State.start given).run (Text.readLines text) = some after ∧
      after.kept.map (·.2) = [.callback "common" ["Hot", "hot"],
        .callback "common" ["ATTRIBUTE_ENUM", "#define"], .callback "own" ["Text", "text"],
        .callback "common" ["Mode", "mode"]] ∧
      after.macros = [("OTHER", .action "other")] := by
  intro calls given
  have hdefined : given.lookup "GET_ATTR_NAMES" ≠ none := by decide
  obtain ⟨text, htext, -, hrun⟩ := names_invoke_callbacks calls .numeric given
  obtain ⟨after, hafter, hkept, -, hmacros⟩ := hrun hdefined
  exact ⟨hdefined, text, after, htext, hafter, hkept, hmacros⟩

end AttributeTables.Output
