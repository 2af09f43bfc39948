import AttributeTables.Output.Emission
import AttributeTables.Proofs.Output.Selections

/-!
# Emission into a bounded space

What is emitted piece by piece is the text of the section. A writer that the text fits into holds it in
the end; any other one holds a prefix of it that is too long, and the emission fails.
-/

namespace AttributeTables.Output

variable {w w' : Bounded} {s t : String} {p q : Writing Unit}

namespace Bounded

@[simp] theorem write_empty (w : Bounded) : w.write "" = w := by
  simp [write]

theorem write_append (w : Bounded) (s t : String) : w.write (s ++ t) = (w.write s).write t := by
  simp [write, String.append_assoc]

theorem isOver_iff : w.isOver = true ↔ w.limit < w.held.utf8ByteSize := decide_eq_true_iff

/-- A writer that has given up does not recover. -/
theorem isOver_write (h : w.isOver = true) (s : String) : (w.write s).isOver = true := by
  rw [isOver_iff] at h ⊢
  simp only [write, String.utf8ByteSize_append]
  omega

end Bounded

namespace Writing

/-! ## Runs -/

theorem run_bind_of_ok {α β : Type} {p : Writing α} {a : α} (h : p.run.run w = (.ok a, w'))
    (f : α → Writing β) : (p >>= f).run.run w = (f a).run.run w' := by
  rw [ExceptT.run_bind, StateT.run_bind, h]
  rfl

theorem run_bind_of_error {α β : Type} {p : Writing α} {e : BoundedFailure}
    (h : p.run.run w = (.error e, w')) (f : α → Writing β) :
    (p >>= f).run.run w = (.error e, w') := by
  rw [ExceptT.run_bind, StateT.run_bind, h]
  rfl

theorem put_run (s : String) (w : Bounded) :
    (put s).run.run w =
      if (w.write s).isOver = true then (.error .full, w.write s) else (.ok (), w.write s) := by
  change ((if (w.write s).isOver = true then throw .full else pure () : Writing Unit).run).run
    (w.write s) = _
  split <;> rfl

/-- A step writes a text if it ends with the whole text where that fits, and gives up at a prefix that
does not fit where it does not. -/
structure Writes (p : Writing Unit) (text : String) : Prop where
  run_of_fits : ∀ w : Bounded, (w.write text).isOver = false → p.run.run w = (.ok (), w.write text)
  run_of_over : ∀ w : Bounded, w.isOver = false → (w.write text).isOver = true →
    ∃ front back, text = front ++ back ∧ (w.write front).isOver = true ∧
      p.run.run w = (.error .full, w.write front)

namespace Writes

theorem done : Writes (pure ()) "" where
  run_of_fits w _ := by
    rw [Bounded.write_empty]
    rfl
  run_of_over w hw hover := by
    rw [Bounded.write_empty, hw] at hover
    cases hover

theorem put (s : String) : Writes (put s) s where
  run_of_fits w hfits := by
    rw [put_run, hfits]
    rfl
  run_of_over w _ hover := ⟨s, "", (String.append_empty).symm, hover, by rw [put_run, if_pos hover]⟩

/-- Two steps write their texts one after the other. -/
theorem bind (hp : Writes p s) (hq : Writes q t) : Writes (p >>= fun _ => q) (s ++ t) where
  run_of_fits w hfits := by
    rw [Bounded.write_append] at hfits ⊢
    have hfront : (w.write s).isOver = false := by
      by_contra hover
      rw [Bounded.isOver_write (Bool.not_eq_false _ ▸ hover)] at hfits
      cases hfits
    rw [run_bind_of_ok (hp.run_of_fits w hfront), hq.run_of_fits _ hfits]
  run_of_over w hw hover := by
    -- The space ends in the first text, or that fits and it ends in the second.
    cases hfront : (w.write s).isOver with
    | true =>
        obtain ⟨front, back, rfl, hgone, hrun⟩ := hp.run_of_over w hw hfront
        exact ⟨front, back ++ t, String.append_assoc, hgone, run_bind_of_error hrun _⟩
    | false =>
        rw [Bounded.write_append] at hover
        obtain ⟨front, back, rfl, hgone, hrun⟩ := hq.run_of_over _ hfront hover
        refine ⟨s ++ front, back, String.append_assoc.symm, ?_, ?_⟩
        · rw [Bounded.write_append, hgone]
        · rw [run_bind_of_ok (hp.run_of_fits w hfront), hrun, Bounded.write_append]

/-- A loop writes the texts of its items in order. -/
theorem forM {α : Type} {xs : List α} {f : α → Writing Unit} {text : α → String}
    (h : ∀ x ∈ xs, Writes (f x) (text x)) : Writes (xs.forM f) (String.join (xs.map text)) := by
  induction xs with
  | nil => exact done
  | cons x xs ih =>
      obtain ⟨hx, hxs⟩ := List.forall_mem_cons.mp h
      rw [List.map_cons, String.join_cons]
      exact hx.bind (ih hxs)

theorem putAll (pieces : List String) : Writes (putAll pieces) (String.join pieces) := by
  have h : Writes (pieces.forM Writing.put) (String.join (pieces.map id)) :=
    forM fun piece _ => put piece
  rwa [List.map_id] at h

theorem of_eq (h : Writes p s) (heq : s = t) : Writes p t := heq ▸ h

/-- A loop that writes a line for each item. -/
theorem lines {α : Type} {f : α → Writing Unit} {line : α → String} (xs : List α)
    (h : ∀ x ∈ xs, Writes (f x) (line x ++ "\n")) :
    Writes (xs.forM f) (Text.unlines (xs.map line)) := by
  rw [Text.unlines, List.map_map]
  exact forM h

end Writes

/-! ## Sections -/

theorem unlines_flatMap {α : Type} (xs : List α) (f : α → List String) :
    Text.unlines (xs.flatMap f) = String.join (xs.map fun x => Text.unlines (f x)) := by
  induction xs with
  | nil => rfl
  | cons x xs ih => rw [List.flatMap_cons, Text.unlines_append, ih, List.map_cons, String.join_cons]

theorem writes_opening (s : Section) : Writes (opening s) (Text.unlines s.opening) := by
  refine ((Writes.putAll _).bind (Writes.putAll _)).of_eq ?_
  simp [Section.opening, Text.unlines, String.append_assoc]

theorem writes_group (k : Catalogue) (g : NameGroup) :
    Writes (group k g) (Text.unlines (groupLines k g)) := by
  have hmembers : Writes (g.categories.forM fun c => (k.listed c).forM fun d =>
      putAll [g.callback, "(", d.name, ",", d.display, ")\n"])
      (Text.unlines ((groupMembers k g).map (invocation g.callback))) := by
    rw [groupMembers, List.map_flatMap, unlines_flatMap]
    refine Writes.forM fun c _ => Writes.lines _ fun d _ => (Writes.putAll _).of_eq ?_
    simp [invocation, String.append_assoc]
  unfold group
  refine Writes.of_eq ((Writes.putAll _).bind <| (Writes.putAll _).bind <| (Writes.putAll _).bind <|
    (Writes.putAll _).bind <| hmembers.bind <| (Writes.putAll _).bind (Writes.putAll _)) ?_
  simp [groupLines, Text.unlines, String.append_assoc]

theorem writes_names (k : Catalogue) : Writes (names k) (Text.unlines (namesLines k)) := by
  have hgroups : Writes (NameGroup.all.forM (group k))
      (Text.unlines (NameGroup.all.flatMap (groupLines k))) := by
    rw [unlines_flatMap]
    exact Writes.forM fun g _ => writes_group k g
  unfold names
  refine Writes.of_eq ((writes_opening .names).bind <| (Writes.putAll _).bind <|
    (Writes.putAll _).bind <| (Writes.putAll _).bind <| (Writes.putAll _).bind <| hgroups.bind <|
    (Writes.putAll _).bind <| (Writes.putAll _).bind (Writes.putAll _)) ?_
  simp [namesLines, Text.unlines, String.append_assoc]

/-- The brackets take their entries from the front of one list, as their lines do. -/
theorem writes_brackets (ranges : List (Category × CodeRange)) (entries : List CodeEntry) :
    Writes (brackets ranges entries) (Text.unlines (bracketLines ranges entries)) := by
  induction ranges generalizing entries with
  | nil => exact Writes.done
  | cons range ranges ih =>
      have hentries : Writes ((entries.takeWhile (·.category == range.1)).forM fun e =>
          putAll [e.name, " = ", toString e.code.toNat, ",\n"])
          (Text.unlines ((entries.takeWhile (·.category == range.1)).map fun e =>
            enumerator e.name e.code)) := by
        refine Writes.lines _ fun e _ => (Writes.putAll _).of_eq ?_
        simp [enumerator, String.append_assoc]
      rw [brackets]
      refine Writes.of_eq ((Writes.putAll _).bind <| hentries.bind <| (Writes.putAll _).bind <|
        ih (entries.dropWhile (·.category == range.1))) ?_
      simp [bracketLines, enumerator, firstMarker, lastMarker, Text.unlines, String.append_assoc]

theorem writes_enumerators (l : Layout) :
    Writes (enumerators l) (Text.unlines (enumeratorsLines l)) := by
  unfold enumerators
  refine Writes.of_eq ((writes_opening .enumerators).bind <|
    (writes_brackets l.ranges l.entries).bind <| (Writes.putAll _).bind (Writes.putAll _)) ?_
  simp [enumeratorsLines, Text.unlines]

theorem writes_compatCall (rule : CompatRule) :
    Writes (compatCall rule) (Output.compatCall rule ++ "\n") := by
  obtain ⟨function, argument⟩ := rule
  unfold compatCall
  cases argument with
  | none =>
      refine Writes.of_eq ((Writes.putAll _).bind <| Writes.done.bind (Writes.putAll _)) ?_
      simp [Output.compatCall, String.append_assoc]
  | some argument =>
      refine Writes.of_eq ((Writes.putAll _).bind <| (Writes.putAll _).bind (Writes.putAll _)) ?_
      simp [Output.compatCall, String.append_assoc]

theorem writes_functionHead (opening caller : String) :
    Writes (functionHead opening caller) (Text.unlines (Output.functionHead opening caller)) := by
  refine ((Writes.putAll _).bind (Writes.putAll _)).of_eq ?_
  simp [Output.functionHead, Text.unlines, String.append_assoc]

theorem writes_functions (k : Catalogue) :
    Writes (functions k) (Text.unlines (functionsLines k)) := by
  have hcompat := Writes.lines k.compatRules fun rule _ => writes_compatCall rule
  have hmerge : Writes (k.mergeRules.forM fun rule =>
      putAll ["  ", rule.function, "(Caller, Callee);\n"])
      (Text.unlines (k.mergeRules.map mergeCall)) := by
    refine Writes.lines _ fun rule _ => (Writes.putAll _).of_eq ?_
    simp [mergeCall, String.append_assoc]
  unfold functions
  refine Writes.of_eq ((writes_opening .functions).bind <| (writes_functionHead _ _).bind <|
    (Writes.putAll _).bind <| (Writes.putAll _).bind <| hcompat.bind <| (Writes.putAll _).bind <|
    (Writes.putAll _).bind <| (Writes.putAll _).bind <| (Writes.putAll _).bind <|
    (writes_functionHead _ _).bind <| hmerge.bind <| (Writes.putAll _).bind <|
    (Writes.putAll _).bind <| (Writes.putAll _).bind (Writes.putAll _)) ?_
  simp [functionsLines, Text.unlines, String.append_assoc]

theorem writes_row (style : Style) (e : PropertyEntry) :
    Writes (row style e) (Output.row style e ++ "\n") := by
  cases style with
  | numeric => exact (Writes.putAll _).of_eq (by simp [Output.row, String.append_assoc])
  | symbolic =>
      have hitems : Writes ((e.tags.flatMap PropertySet.items).forM fun item =>
          putAll [" | AttributeProperty::", item.name])
          (String.join ((e.tags.flatMap PropertySet.items).map (" | " ++ symbol ·))) := by
        refine Writes.forM fun item _ => (Writes.putAll _).of_eq ?_
        change _ = " | " ++ ("AttributeProperty::" ++ item.name)
        rw [← String.append_assoc]
        simp
      refine Writes.of_eq ((Writes.putAll _).bind <| hitems.bind (Writes.putAll _)) ?_
      simp [Output.row, String.append_assoc]

theorem writes_properties (style : Style) (t : PropertyTable) :
    Writes (properties style t) (Text.unlines (propertiesLines style t)) := by
  have hrows := Writes.lines t.entries fun e _ => writes_row style e
  unfold properties
  refine Writes.of_eq ((writes_opening .properties).bind <| (Writes.putAll _).bind <| hrows.bind <|
    (Writes.putAll _).bind (Writes.putAll _)) ?_
  simp [propertiesLines, Text.unlines, String.append_assoc]

end Writing

/-! ## Checks before the first piece -/

section Checks

variable {k : Catalogue} {style : Style} {sec : Section}

theorem Writing.writes_ofSection {lines : List String} (h : sectionLines k style sec = .ok lines) :
    Writes (ofSection k style sec) (Text.unlines lines) := by
  cases sec with
  | names => cases h; exact writes_names k
  | functions => cases h; exact writes_functions k
  | enumerators =>
      rw [ofSection]
      rw [sectionLines] at h
      cases hl : layout k with
      | error f => rw [hl] at h; cases h
      | ok l => rw [hl] at h; cases h; exact writes_enumerators l
  | properties =>
      rw [ofSection]
      rw [sectionLines] at h
      cases ht : table k with
      | error f => rw [ht] at h; cases h
      | ok t => rw [ht] at h; cases h; exact writes_properties style t

theorem emitSection_of_error {f : Failure} (h : sectionLines k style sec = .error f) (w : Bounded) :
    emitSection k style sec w = (.error (.generation f), w) := by
  rw [emitSection]
  cases sec with
  | names => cases h
  | functions => cases h
  | enumerators =>
      rw [Writing.ofSection]
      rw [sectionLines] at h
      cases hl : layout k with
      | error f => rw [hl] at h; cases h; exact Writing.run_bind_of_error rfl _
      | ok l => rw [hl] at h; cases h
  | properties =>
      rw [Writing.ofSection]
      rw [sectionLines] at h
      cases ht : table k with
      | error f => rw [ht] at h; cases h; exact Writing.run_bind_of_error rfl _
      | ok t => rw [ht] at h; cases h

end Checks

/-- A section is emitted into a bounded space as it is written without a bound. If the property table
is refused, nothing is written. Otherwise the section has a text, and the writer holds all of it if it
fits; if not, the emission fails, and the writer holds the part of the text at which it gave up. -/
theorem emitSection_bounded (k : Catalogue) (style : Style) (s : Section) (limit : Nat)
    (hsize : k.codeBearing.length ≤ UInt32.size - 2) :
    (∀ conflict, s = .properties → PropertyTable.build k = .error conflict →
      emitSection k style s { limit } = (.error (.generation (.conflict conflict)), { limit })) ∧
    ((s = .properties → ∃ t, PropertyTable.build k = .ok t) →
      ∃ text, sectionText k style s = .ok text ∧
        (text.utf8ByteSize ≤ limit →
          emitSection k style s { limit } = (.ok (), { limit, held := text })) ∧
        (limit < text.utf8ByteSize → ∃ held : String, held.toList <+: text.toList ∧
          limit < held.utf8ByteSize ∧
          emitSection k style s { limit } = (.error .full, { limit, held }))) := by
  have hempty : ∀ text, (Bounded.mk limit "").write text = { limit, held := text } := by
    simp [Bounded.write]
  refine ⟨?_, fun ht => ?_⟩
  · rintro conflict rfl hconflict
    refine emitSection_of_error ?_ _
    rw [sectionLines, table_of_conflict hconflict]
    rfl
  · obtain ⟨l, hl⟩ := Layout.exists_assign_iff.mpr hsize
    obtain ⟨lines, hlines⟩ : ∃ lines, sectionLines k style s = .ok lines := by
      cases s with
      | names => exact ⟨_, rfl⟩
      | functions => exact ⟨_, rfl⟩
      | enumerators => exact ⟨_, by rw [sectionLines, layout_of_assign hl]; rfl⟩
      | properties =>
          obtain ⟨t, ht⟩ := ht rfl
          exact ⟨_, by rw [sectionLines, table_of_build ht]; rfl⟩
    have hwrites := Writing.writes_ofSection hlines
    refine ⟨Text.unlines lines, by rw [sectionText, hlines]; rfl, fun hfits => ?_, fun hover => ?_⟩
    · rw [← hempty]
      exact hwrites.run_of_fits _ (by simpa [Bounded.isOver, hempty] using hfits)
    · obtain ⟨front, back, htext, hgone, hrun⟩ := hwrites.run_of_over { limit }
        (by simp [Bounded.isOver]) (by simpa [Bounded.isOver, hempty] using hover)
      rw [hempty] at hgone hrun
      refine ⟨front, ⟨back.toList, ?_⟩, Bounded.isOver_iff.mp hgone, hrun⟩
      rw [htext, String.toList_append]

/-- Two definitions, one of them listed under another category than its own. The space ends in the
middle of a line of the enumerators; the property table is refused before any space is needed. -/
theorem emitSection_bounded_cut :
    let k : Catalogue := ⟨fun c => if c = .type then [⟨"ByVal", .type, "byval", []⟩,
      ⟨"Align", .int, "align", [⟨48⟩]⟩] else [], [], []⟩
    k.codeBearing.length ≤ UInt32.size - 2 ∧
    (∃ text held : String, sectionText k .numeric .enumerators = .ok text ∧
      held.toList <+: text.toList ∧
      emitSection k .numeric .enumerators { limit := 100 } = (.error .full, ⟨100, held⟩)) ∧
    ∃ conflict, PropertyTable.build k = .error conflict ∧
      emitSection k .symbolic .properties { limit := 0 } =
        (.error (.generation (.conflict conflict)), ⟨0, ""⟩) := by
  intro k
  have hsize : k.codeBearing.length ≤ UInt32.size - 2 := by decide
  have hconflict : PropertyTable.build k = .error ⟨"Align", ⟨16⟩, .enum, .int⟩ := rfl
  refine ⟨hsize, ?_, _, hconflict, (emitSection_bounded k .symbolic .properties 0 hsize).1 _ rfl
    hconflict⟩
  obtain ⟨text, htext, -, hover⟩ := (emitSection_bounded k .numeric .enumerators 100 hsize).2 nofun
  have hlength : ∀ t ∈ (sectionText k .numeric .enumerators).toOption, 100 < t.utf8ByteSize := by
    decide +kernel
  have hlong : 100 < text.utf8ByteSize := hlength text (by rw [htext]; rfl)
  obtain ⟨held, hprefix, -, hrun⟩ := hover hlong
  exact ⟨text, held, htext, hprefix, hrun⟩

end AttributeTables.Output
