import AttributeTables.Output
import AttributeTables.Proofs.Registry.History
import AttributeTables.Proofs.Text.Lines
import AttributeTables.Proofs.Text.Literals
import Mathlib.Data.List.TakeWhile

/-!
# The shape of the functions

Each rule gives one line in the body of one of the two functions. The argument of a rule is escaped,
but the name of its function is written as it stands, and the section has its shape exactly as long as
no such name breaks the line or turns it into a directive.
-/

namespace AttributeTables

namespace Output

variable {k : Catalogue}

/-! ## Reading the section -/

/-- The first character that is not blank is the sign of a directive. -/
def isDirectiveLine (line : String) : Bool :=
  (line.toList.dropWhile Text.isBlank).head? == some '#'

/-- The lines after the first one that is `opening`, up to the next one that is `closing`. -/
def between (opening closing : String) (lines : List String) : List String :=
  ((lines.dropWhile (· != opening)).drop 1).takeWhile (· != closing)

/-- The lines between the declaration of the result and its return that add to the result. -/
def readCompatCalls (text : String) : List String :=
  (between "  bool Ret = true;" "  return Ret;" (Text.readLines text)).filter
    fun line => "  Ret &= ".toList.isPrefixOf line.toList

/-- The body of the second function, whose head takes two lines. -/
def readMergeCalls (text : String) : List String :=
  (between "static inline void mergeFnAttrs(Function &Caller," "\x7d" (Text.readLines text)).drop 1

/-- The directives of the section are those around it, and each rule has its line, in order. -/
structure SoundFunctions (k : Catalogue) (text : String) : Prop where
  opening : (Text.readLines text).take 2 =
    ["#ifdef GET_ATTR_COMPAT_FUNC", "#undef GET_ATTR_COMPAT_FUNC"]
  closing : ["#endif", ""] <:+ Text.readLines text
  directives : (Text.readLines text).filter isDirectiveLine =
    ["#ifdef GET_ATTR_COMPAT_FUNC", "#undef GET_ATTR_COMPAT_FUNC", "#endif"]
  compatCalls : readCompatCalls text = k.compatRules.map fun rule =>
    "  Ret &= " ++ rule.function ++ "(Caller, Callee" ++
      (match rule.argument with
      | some argument => ", \"" ++ Text.literal argument ++ "\""
      | none => "") ++ ");"
  mergeCalls : readMergeCalls text = k.mergeRules.map fun rule =>
    "  " ++ rule.function ++ "(Caller, Callee);"

/-! ## Lines of the rules -/

theorem newline_mem_compatCall_iff (rule : CompatRule) :
    '\n' ∈ (compatCall rule).toList ↔ '\n' ∈ rule.function.toList := by
  cases hargument : rule.argument with
  | none => simp [compatCall, hargument]
  | some argument => simp [compatCall, hargument, Text.newline_not_mem_literal]

theorem newline_mem_mergeCall_iff (rule : MergeRule) :
    '\n' ∈ (mergeCall rule).toList ↔ '\n' ∈ rule.function.toList := by
  simp [mergeCall]

theorem isDirectiveLine_compatCall (rule : CompatRule) : isDirectiveLine (compatCall rule) = false := by
  simp only [isDirectiveLine, compatCall, String.toList_append]
  rfl

/-- The call of a merge rule is a directive if the name of its function reads like one. -/
theorem isDirectiveLine_mergeCall (rule : MergeRule) :
    isDirectiveLine (mergeCall rule) = isDirectiveLine rule.function := by
  have hline : (mergeCall rule).toList.dropWhile Text.isBlank =
      (rule.function.toList ++ "(Caller, Callee);".toList).dropWhile Text.isBlank := by
    simp only [mergeCall, String.toList_append]
    rfl
  rw [isDirectiveLine, isDirectiveLine, hline, List.dropWhile_append]
  split_ifs with hempty
  · rw [List.isEmpty_iff.mp hempty]
    rfl
  · rw [List.head?_append_of_ne_nil _ fun hnil => hempty (List.isEmpty_iff.mpr hnil)]

theorem prefix_compatCall (rule : CompatRule) :
    "  Ret &= ".toList.isPrefixOf (compatCall rule).toList = true := by
  simp only [compatCall, String.toList_append]
  rfl

theorem compatCall_ne {line : String} (h : "  Ret &= ".toList.isPrefixOf line.toList = false)
    (rule : CompatRule) : compatCall rule ≠ line := by
  rintro rfl
  rw [prefix_compatCall] at h
  cases h

theorem head?_mergeCall (rule : MergeRule) : (mergeCall rule).toList.head? = some ' ' := by
  simp only [mergeCall, String.toList_append]
  rfl

theorem mergeCall_ne {line : String} (h : line.toList.head? ≠ some ' ') (rule : MergeRule) :
    mergeCall rule ≠ line := by
  rintro rfl
  exact h (head?_mergeCall rule)

/-! ## Lines of the section -/

def functionsStart : List String :=
  Section.functions.opening ++
  functionHead ("static inline bool " ++ compatFunction ++ "(") "const Function &Caller," ++
  ["  bool Ret = true;", ""]

def functionsMiddle : List String :=
  ["", "  return Ret;", "\x7d", ""] ++
  functionHead ("static inline void " ++ mergeFunction ++ "(") "Function &Caller,"

def functionsEnd : List String := ["\x7d", "", "#endif", ""]

theorem functionsLines_eq (k : Catalogue) :
    functionsLines k = functionsStart ++ (k.compatRules.map compatCall ++
      (functionsMiddle ++ (k.mergeRules.map mergeCall ++ functionsEnd))) := by
  simp [functionsLines, functionsStart, functionsMiddle, functionsEnd]

theorem readLines_functionsLines
    (hcompat : ∀ rule ∈ k.compatRules, '\n' ∉ rule.function.toList)
    (hmerge : ∀ rule ∈ k.mergeRules, '\n' ∉ rule.function.toList) :
    Text.readLines (Text.unlines (functionsLines k)) = functionsLines k := by
  refine Text.readLines_unlines_of_getLast? ?_ ?_
  all_goals
    rw [functionsLines_eq]
    refine List.forall_mem_append.mpr ⟨by decide, List.forall_mem_append.mpr ⟨?_,
      List.forall_mem_append.mpr ⟨by decide, List.forall_mem_append.mpr ⟨?_, by decide⟩⟩⟩⟩
  · exact List.forall_mem_map.mpr fun rule hrule =>
      mt (newline_mem_compatCall_iff rule).mp (hcompat rule hrule)
  · exact List.forall_mem_map.mpr fun rule hrule =>
      mt (newline_mem_mergeCall_iff rule).mp (hmerge rule hrule)
  · refine List.forall_mem_map.mpr fun rule _ => ?_
    rw [compatCall, String.toList_append, List.getLast?_append]
    exact show some ';' ≠ some '\r' by decide
  · refine List.forall_mem_map.mpr fun rule _ => ?_
    rw [mergeCall, String.toList_append, List.getLast?_append]
    exact show some ';' ≠ some '\r' by decide

theorem filter_isDirectiveLine_functionsLines
    (hmerge : ∀ rule ∈ k.mergeRules, isDirectiveLine rule.function = false) :
    (functionsLines k).filter isDirectiveLine =
      ["#ifdef GET_ATTR_COMPAT_FUNC", "#undef GET_ATTR_COMPAT_FUNC", "#endif"] := by
  have hcalls : (k.compatRules.map compatCall).filter isDirectiveLine = [] :=
    List.filter_eq_nil_iff.mpr <| List.forall_mem_map.mpr fun rule _ => by
      simp [isDirectiveLine_compatCall]
  have hmerges : (k.mergeRules.map mergeCall).filter isDirectiveLine = [] :=
    List.filter_eq_nil_iff.mpr <| List.forall_mem_map.mpr fun rule hrule => by
      simp [isDirectiveLine_mergeCall, hmerge rule hrule]
  have hstart : functionsStart.filter isDirectiveLine =
      ["#ifdef GET_ATTR_COMPAT_FUNC", "#undef GET_ATTR_COMPAT_FUNC"] := by decide
  have hmiddle : functionsMiddle.filter isDirectiveLine = [] := by decide
  have hend : functionsEnd.filter isDirectiveLine = ["#endif"] := by decide
  rw [functionsLines_eq, List.filter_append, List.filter_append, List.filter_append,
    List.filter_append, hcalls, hmerges, hstart, hmiddle, hend]
  rfl

theorem between_compatCalls (k : Catalogue) :
    between "  bool Ret = true;" "  return Ret;" (functionsLines k) =
      "" :: (k.compatRules.map compatCall ++ [""]) := by
  have hcalls : ∀ line ∈ "" :: (k.compatRules.map compatCall ++ [""]),
      (line != "  return Ret;") = true := by
    refine List.forall_mem_cons.mpr ⟨by decide, List.forall_mem_append.mpr ⟨?_, by decide⟩⟩
    exact List.forall_mem_map.mpr fun rule _ => bne_iff_ne.mpr (compatCall_ne (by decide) rule)
  obtain ⟨rest, hrest⟩ : ∃ rest, functionsMiddle ++ (k.mergeRules.map mergeCall ++ functionsEnd) =
      "" :: "  return Ret;" :: rest := ⟨_, rfl⟩
  have hdrop : ((functionsLines k).dropWhile (· != "  bool Ret = true;")).drop 1 =
      "" :: (k.compatRules.map compatCall ++ [""]) ++ "  return Ret;" :: rest := by
    rw [functionsLines_eq, hrest, List.cons_append, List.append_assoc]
    rfl
  rw [between, hdrop, List.takeWhile_append_of_pos hcalls, List.takeWhile_cons_of_neg (by simp),
    List.append_nil]

theorem between_mergeCalls (k : Catalogue) :
    (between "static inline void mergeFnAttrs(Function &Caller," "\x7d" (functionsLines k)).drop 1 =
      k.mergeRules.map mergeCall := by
  have hcalls : ∀ line ∈ k.compatRules.map compatCall,
      (line != "static inline void mergeFnAttrs(Function &Caller,") = true :=
    List.forall_mem_map.mpr fun rule _ => bne_iff_ne.mpr (compatCall_ne (by decide) rule)
  have hstart : ∀ line ∈ functionsStart,
      (line != "static inline void mergeFnAttrs(Function &Caller,") = true := by decide
  have hmerges : ∀ line ∈ k.mergeRules.map mergeCall, (line != "\x7d") = true :=
    List.forall_mem_map.mpr fun rule _ => bne_iff_ne.mpr (mergeCall_ne (by decide) rule)
  obtain ⟨head, hhead, hdrop⟩ : ∃ head, (head != "\x7d") = true ∧ ∀ lines : List String,
      ((functionsMiddle ++ lines).dropWhile
        (· != "static inline void mergeFnAttrs(Function &Caller,")).drop 1 = head :: lines :=
    ⟨"                                const Function &Callee) \x7b", by decide, fun _ => rfl⟩
  rw [functionsLines_eq, between, List.dropWhile_append_of_pos hstart,
    List.dropWhile_append_of_pos hcalls, hdrop, List.takeWhile_cons_of_pos (p := (· != "\x7d")) hhead,
    List.takeWhile_append_of_pos hmerges, List.drop_one, List.tail_cons]
  exact List.append_nil _

/-! ## Soundness -/

theorem soundFunctions_of_names (hcompat : ∀ rule ∈ k.compatRules, '\n' ∉ rule.function.toList)
    (hmerge : ∀ rule ∈ k.mergeRules,
      '\n' ∉ rule.function.toList ∧ isDirectiveLine rule.function = false) :
    SoundFunctions k (Text.unlines (functionsLines k)) := by
  have hread := readLines_functionsLines hcompat fun rule hrule => (hmerge rule hrule).1
  have hcalls : (k.compatRules.map compatCall).filter
      (fun line => "  Ret &= ".toList.isPrefixOf line.toList) = k.compatRules.map compatCall :=
    List.filter_eq_self.mpr (List.forall_mem_map.mpr fun rule _ => prefix_compatCall rule)
  constructor
  · rw [hread, functionsLines_eq]
    rfl
  · rw [hread]
    exact ⟨functionsStart ++ (k.compatRules.map compatCall ++
      (functionsMiddle ++ (k.mergeRules.map mergeCall ++ ["\x7d", ""]))), by
        simp [functionsLines_eq, functionsEnd]⟩
  · rw [hread]
    exact filter_isDirectiveLine_functionsLines fun rule hrule => (hmerge rule hrule).2
  · rw [readCompatCalls, hread, between_compatCalls, List.filter_cons_of_neg (by decide),
      List.filter_append, hcalls, List.filter_cons_of_neg (by decide)]
    exact List.append_nil _
  · rw [readMergeCalls, hread, between_mergeCalls]
    rfl

section Sound

variable {text : String} (h : SoundFunctions k text)
include h

theorem SoundFunctions.newline_not_mem_compat :
    ∀ rule ∈ k.compatRules, '\n' ∉ rule.function.toList := by
  intro rule hrule
  have hmem : compatCall rule ∈ readCompatCalls text := by
    rw [h.compatCalls]
    exact List.mem_map_of_mem hrule
  have hread : compatCall rule ∈ Text.readLines text :=
    (List.dropWhile_sublist _).subset <| List.drop_subset _ _ <|
      (List.takeWhile_sublist _).subset <| (List.mem_filter.mp hmem).1
  exact mt (newline_mem_compatCall_iff rule).mpr (Text.newline_not_mem_of_mem_readLines hread)

theorem SoundFunctions.mergeCall_mem_readLines {rule : MergeRule} (hrule : rule ∈ k.mergeRules) :
    mergeCall rule ∈ Text.readLines text := by
  have hmem : mergeCall rule ∈ readMergeCalls text := by
    rw [h.mergeCalls]
    exact List.mem_map_of_mem hrule
  exact (List.dropWhile_sublist _).subset <| List.drop_subset _ _ <|
    (List.takeWhile_sublist _).subset <| List.drop_subset _ _ hmem

theorem SoundFunctions.names_merge : ∀ rule ∈ k.mergeRules,
    '\n' ∉ rule.function.toList ∧ isDirectiveLine rule.function = false := by
  intro rule hrule
  have hread := h.mergeCall_mem_readLines hrule
  refine ⟨mt (newline_mem_mergeCall_iff rule).mpr (Text.newline_not_mem_of_mem_readLines hread), ?_⟩
  rw [← isDirectiveLine_mergeCall, ← Bool.not_eq_true]
  intro hdirective
  have hmem : mergeCall rule ∈ (Text.readLines text).filter isDirectiveLine :=
    List.mem_filter.mpr ⟨hread, hdirective⟩
  -- The directives around the section are not indented.
  rw [h.directives] at hmem
  have hhead : ∀ line ∈ ["#ifdef GET_ATTR_COMPAT_FUNC", "#undef GET_ATTR_COMPAT_FUNC", "#endif"],
      line.toList.head? ≠ some ' ' := by decide
  exact hhead _ hmem (head?_mergeCall rule)

end Sound

/-- The functions of a registry are always written. They have their shape exactly as long as no rule
names a function with a line break in it, and no merge rule one that starts like a directive; the
arguments of the rules do not matter. -/
theorem functions_sound_iff (calls : List Call) (style : Style) :
    let k := (Registry.ofCalls calls).catalogue
    ∃ text, sectionText k style .functions = .ok text ∧
      (SoundFunctions k text ↔
        (∀ rule ∈ k.compatRules, '\n' ∉ rule.function.toList) ∧
        ∀ rule ∈ k.mergeRules,
          '\n' ∉ rule.function.toList ∧ isDirectiveLine rule.function = false) := by
  intro k
  refine ⟨Text.unlines (functionsLines k), rfl, ⟨fun h => ?_, fun h => ?_⟩⟩
  · exact ⟨h.newline_not_mem_compat, h.names_merge⟩
  · exact soundFunctions_of_names h.1 h.2

/-- A line break and a directive in an argument do no harm. -/
theorem functions_sound_escaped_argument :
    let calls : List Call := [.compatRule ⟨"isEqual<A>", some "a\n#define \"x\\"⟩,
      .mergeRule ⟨"setAND<A>"⟩, .compatRule ⟨"", none⟩, .compatRule ⟨"#check", some ""⟩]
    ∃ text, sectionText (Registry.ofCalls calls).catalogue .numeric .functions = .ok text ∧
      SoundFunctions (Registry.ofCalls calls).catalogue text ∧
      readCompatCalls text = ["  Ret &= isEqual<A>(Caller, Callee, \"a\\n#define \\\"x\\\\\");",
        "  Ret &= #check(Caller, Callee);"] := by
  intro calls
  obtain ⟨text, htext, hsound⟩ := functions_sound_iff calls .numeric
  have h := hsound.mpr ⟨by decide, by decide⟩
  exact ⟨text, htext, h, h.compatCalls⟩

/-- A merge rule is accepted though its function reads like a directive, and its line becomes one. -/
theorem functions_unsound_directive :
    let calls : List Call := [.mergeRule ⟨"#define helper"⟩]
    let r := Registry.ofCalls calls
    (Registry.perform {} calls).1 = [.ok ()] ∧
    ∃ text, sectionText r.catalogue .numeric .functions = .ok text ∧
      (Text.readLines text).filter isDirectiveLine = ["#ifdef GET_ATTR_COMPAT_FUNC",
        "#undef GET_ATTR_COMPAT_FUNC", "  #define helper(Caller, Callee);", "#endif"] ∧
      ¬ SoundFunctions r.catalogue text := by
  intro calls r
  have hread : Text.readLines (Text.unlines (functionsLines r.catalogue)) =
      functionsLines r.catalogue := readLines_functionsLines (by decide) (by decide)
  have hdirectives : (Text.readLines (Text.unlines (functionsLines r.catalogue))).filter
      isDirectiveLine = ["#ifdef GET_ATTR_COMPAT_FUNC", "#undef GET_ATTR_COMPAT_FUNC",
        "  #define helper(Caller, Callee);", "#endif"] := by
    rw [hread]
    decide
  refine ⟨rfl, _, rfl, hdirectives, fun h => ?_⟩
  have heq := h.directives.symm.trans hdirectives
  exact absurd heq (by decide)

end Output

end AttributeTables
