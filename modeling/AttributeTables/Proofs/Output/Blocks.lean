import AttributeTables.Proofs.Output.Callbacks
import AttributeTables.Proofs.Preprocessor.Blocks

/-!
# The sections as blocks

Each section stands under a conditional on its own symbol, and nothing that is written for an
attribute is read as a directive. So a section is a block, which a preprocessor keeps as a whole or
skips as a whole.
-/

namespace AttributeTables.Output

open Preprocessor

variable {α : Type}

/-! ## Lines of the sections -/

theorem ofString_enumerator {name : String} (hname : Text.IsIdentifier name) (value : Code) :
    Line.ofString (enumerator name value) = .text := by
  have hline : (enumerator name value).toList =
      name.toList ++ (" = " ++ toString value.toNat ++ ",").toList := by
    simp [enumerator]
  exact Line.ofString_eq_text hname hline

theorem isIdentifier_marker (c : Category) :
    Text.IsIdentifier (firstMarker c) ∧ Text.IsIdentifier (lastMarker c) := by
  cases c <;> decide

theorem ofString_of_mem_bracketLines (ranges : List (Category × CodeRange))
    {entries : List CodeEntry} (hname : ∀ e ∈ entries, Text.IsIdentifier e.name) :
    ∀ line ∈ bracketLines ranges entries, Line.ofString line = .text := by
  refine forall_mem_bracketLines (fun c value => ⟨?_, ?_⟩) ranges fun e he => ?_
  · exact ofString_enumerator (isIdentifier_marker c).1 value
  · exact ofString_enumerator (isIdentifier_marker c).2 value
  · exact ofString_enumerator (hname e he) e.code

theorem ofString_row (style : Style) (e : PropertyEntry) : Line.ofString (row style e) = .text := by
  -- In either style a row starts with a digit.
  cases style with
  | numeric =>
      have hline : (row .numeric e).toList = Nat.toDigits 10 e.flags.bits.toNat ++ [','] := by
        simp [row]
      cases hdigits : Nat.toDigits 10 e.flags.bits.toNat with
      | nil => exact absurd hdigits Nat.toDigits_ne_nil
      | cons first rest =>
          have hfirst : first.isDigit = true :=
            Nat.isDigit_of_mem_toDigits (b := 10) (n := e.flags.bits.toNat) (by decide) (by decide)
              (by simp [hdigits])
          rw [hdigits, List.cons_append] at hline
          refine Line.ofString_eq_text_of_isPart ?_ hline
          simp [Text.isIdentifierPart, Char.isAlphanum, hfirst]
  | symbolic =>
      have hline : (row .symbolic e).toList =
          '0' :: ((String.join ((e.tags.flatMap PropertySet.items).map (" | " ++ symbol ·))).toList ++
            [',']) := by
        simp [row]
      exact Line.ofString_eq_text_of_isPart rfl hline

/-! ## Blocks -/

/-- The macros that the sections define for themselves. -/
def helperMacros : List String := fallbackCallback :: NameGroup.all.map NameGroup.callback

theorem toggle_not_mem_helperMacros (sec : Section) : sec.toggle ∉ helperMacros := by
  cases sec <;> decide

theorem toggle_injective {sec sec' : Section} (h : sec.toggle = sec'.toggle) : sec = sec' := by
  cases sec <;> cases sec' <;> first | rfl | exact absurd h (by decide)

/-- Lines that count as a whole where the symbol of the section is defined, and not at all where it
is not. The symbol is used up. -/
structure IsBlock (α : Type) (sec : Section) (lines : List String) : Prop where
  balanced : Balanced lines
  skipped : ∀ s : State α, s.isDefined sec.toggle = false → s.run lines = some s
  passed : ∀ s : State α, s.isActive = true → s.isDefined sec.toggle = true →
    ∃ t, Passed (sec.toggle :: helperMacros) lines s t ∧ t.isDefined sec.toggle = false

def block (sec : Section) (inner closing : List String) : List String :=
  sec.opening ++ inner ++ "#endif" :: closing

section Block

variable {sec : Section} {inner closing : List String} (hclosing : closing = [] ∨ closing = [""])
include hclosing

theorem run_closing_block (s : State α) (holds : Bool) :
    (s.push holds).run ("#endif" :: closing) = some s := by
  have hendif : Line.ofString "#endif" = .directive .endif := rfl
  rw [State.run_cons, State.step_directive hendif, State.follow_endif_push, Option.bind_some]
  rcases hclosing with rfl | rfl
  · rfl
  · rw [State.run_singleton, State.step_blank rfl]

theorem textLines_block : textLines (block sec inner closing) = textLines inner := by
  have hopening : textLines sec.opening = [] := by cases sec <;> rfl
  have hclosed : textLines ("#endif" :: closing) = [] := by rcases hclosing with rfl | rfl <;> rfl
  rw [block, textLines_append, textLines_append, hopening, hclosed, List.nil_append, List.append_nil]

theorem balanced_block (hbalanced : Balanced inner) : Balanced (block sec inner closing) := by
  have hopening : (Line.ofString ("#ifdef " ++ sec.toggle)).opens = true := by
    rw [ofString_ifDefined_toggle]
    rfl
  have hundefine : (Line.ofString ("#undef " ++ sec.toggle)).isPlain = true := by
    rw [ofString_undefine_toggle]
    rfl
  have hconditional : Balanced (("#ifdef " ++ sec.toggle) :: (["#undef " ++ sec.toggle] ++ inner ++
      ["#endif"])) := .conditional hopening (.append (.plain hundefine) hbalanced) rfl
  have hblank : Balanced closing := by
    rcases hclosing with rfl | rfl
    · exact .nil
    · exact .plain rfl
  simpa [block, Section.opening] using hconditional.append hblank

theorem run_block_of_undefined (hbalanced : Balanced inner) {s : State α}
    (hs : s.isDefined sec.toggle = false) : s.run (block sec inner closing) = some s := by
  have hinactive : (s.push false).isActive = false := rfl
  rw [block, State.run_append, State.run_append, run_sectionOpening, hs, hinactive,
    if_neg Bool.false_ne_true, Option.bind_some, State.run_of_inactive hbalanced hinactive,
    Option.bind_some, run_closing_block hclosing]

theorem passed_block (hpassable : Passable α helperMacros inner) {s : State α}
    (hs : s.isActive = true) (hdefined : s.isDefined sec.toggle = true) :
    ∃ t, Passed (sec.toggle :: helperMacros) (block sec inner closing) s t ∧
      t.isDefined sec.toggle = false := by
  have hpushed : (s.push true).isActive = true := hs
  have hundefined : ((s.push true).undefine sec.toggle).isActive = true := hs
  obtain ⟨v, hv⟩ := hpassable _ hundefined
  -- The conditional of the block is still open, and it is the innermost one.
  obtain ⟨t, rfl, hconditions⟩ := State.exists_push_eq hv.conditions
  have hlookup : ∀ name ∉ helperMacros,
      t.macros.lookup name = (s.macros.erase sec.toggle).lookup name := hv.lookup
  refine ⟨t, ⟨?_, hconditions, ?_, fun name hname => ?_⟩, ?_⟩
  · rw [block, State.run_append, State.run_append, run_sectionOpening, hdefined, if_pos hpushed,
      Option.bind_some, hv.run, Option.bind_some, run_closing_block hclosing]
  · rw [textLines_block hclosing]
    exact hv.keptLines
  · obtain ⟨hne, hname⟩ := not_or.mp (mt List.mem_cons.mpr hname)
    rw [hlookup name hname, Macros.lookup_erase, if_pos (bne_iff_ne.mpr hne)]
  · rw [State.isDefined, hlookup _ (toggle_not_mem_helperMacros sec), Macros.lookup_erase,
      if_neg (by simp)]
    rfl

theorem isBlock_block (hbalanced : Balanced inner) (hpassable : Passable α helperMacros inner) :
    IsBlock α sec (block sec inner closing) where
  balanced := balanced_block hclosing hbalanced
  skipped _ hs := run_block_of_undefined hclosing hbalanced hs
  passed _ hs hdefined := passed_block hclosing hpassable hs hdefined

end Block

theorem callback_mem_helperMacros (g : NameGroup) : g.callback ∈ helperMacros := by
  cases g <;> decide

theorem balanced_groupLines (k : Catalogue) (g : NameGroup) : Balanced (groupLines k g) := by
  have hundefine : (Line.ofString ("#undef " ++ g.callback)).isPlain = true := by
    rw [ofString_undefine]
    rfl
  refine .append (.append ?_ ?_) (.append (.plain hundefine) (.plain rfl))
  · exact .default (ofString_ifUndefined g) (ofString_define g) rfl rfl
  · exact .texts (List.forall_mem_map.mpr fun d _ => ofString_invocation g d)

theorem passable_groupLines (k : Catalogue) (g : NameGroup) :
    Passable α helperMacros (groupLines k g) := by
  have hcallback := callback_mem_helperMacros g
  refine .append (.append ?_ ?_) (.append (.undefine (ofString_undefine g) hcallback) (.blank rfl))
  · exact .default (ofString_ifUndefined g) (ofString_define g) rfl rfl hcallback
  · exact .texts _ (List.forall_mem_map.mpr fun d _ => ofString_invocation g d)

theorem isBlock_namesLines (k : Catalogue) : IsBlock α .names (namesLines k) := by
  have hundefine : Line.ofString ("#undef " ++ fallbackCallback) =
      .directive (.undefine "ATTRIBUTE_ALL") := rfl
  have hlines : namesLines k = block .names
      (["#ifndef " ++ fallbackCallback, "#define " ++ fallbackCallback ++ "(FIRST, SECOND)",
        "#endif", ""] ++ NameGroup.all.flatMap (groupLines k) ++ ["#undef " ++ fallbackCallback])
      [""] := by
    simp [namesLines, block]
  rw [hlines]
  refine isBlock_block (.inr rfl) (.append (.append ?_ ?_) (.plain rfl))
    (.append (.append ?_ ?_) ?_)
  · exact .default rfl rfl rfl rfl
  · exact .flatMap fun g _ => balanced_groupLines k g
  · exact .default rfl rfl rfl rfl (by decide)
  · exact .flatMap fun g _ => passable_groupLines k g
  · exact .undefine hundefine (by decide)

theorem isBlock_of_texts (sec : Section) {inner closing : List String}
    (htext : ∀ line ∈ inner, Line.ofString line = .text) (hclosing : closing = [] ∨ closing = [""]) :
    IsBlock α sec (block sec inner closing) :=
  isBlock_block hclosing (.texts htext) (.texts _ htext)

theorem isBlock_enumeratorsLines {l : Layout} (hname : ∀ e ∈ l.entries, Text.IsIdentifier e.name) :
    IsBlock α .enumerators (enumeratorsLines l) :=
  isBlock_of_texts .enumerators (ofString_of_mem_bracketLines l.ranges hname) (.inr rfl)

theorem isBlock_propertiesLines (style : Style) (t : PropertyTable) :
    IsBlock α .properties (propertiesLines style t) := by
  have hlines : propertiesLines style t = block .properties
      (["static const uint8_t " ++ tableName ++ "[] = \x7b"] ++ t.entries.map (row style) ++
        ["\x7d;"]) [] := by
    simp [propertiesLines, block]
  rw [hlines]
  refine isBlock_of_texts .properties ?_ (.inl rfl)
  refine List.forall_mem_append.mpr ⟨List.forall_mem_append.mpr ⟨by decide, ?_⟩, by decide⟩
  exact List.forall_mem_map.mpr fun e _ => ofString_row style e

end AttributeTables.Output
