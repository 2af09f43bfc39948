import AttributeTables.Proofs.Search
import AttributeTables.Registry
import Mathlib.Data.List.Perm.Basic

/-!
# Steps of a registry

What a registry answers to a call, said of the attributes that it stores, and what an accepted call
adds. The names in use are kept apart from the lists by category; `Registry.WellFormed` ties them
together, and every step keeps it.
-/

namespace AttributeTables

variable {r : Registry} {call : Call} {d : Definition}

/-! ## Names and display strings -/

/-- A letter of ASCII. -/
def Text.IsLetter (x : Char) : Prop := ('A' ≤ x ∧ x ≤ 'Z') ∨ ('a' ≤ x ∧ x ≤ 'z')

/-- An identifier of C. -/
def Text.IsIdentifier (s : String) : Prop :=
  ∃ first rest, s.toList = first :: rest ∧ (IsLetter first ∨ first = '_') ∧
    ∀ x ∈ rest, IsLetter x ∨ ('0' ≤ x ∧ x ≤ '9') ∨ x = '_'

/-- A text that is one argument of a callback. -/
def IsArgument (s : String) : Prop :=
  s ≠ "" ∧ ∀ x ∈ s.toList, Text.isBlank x = false ∧ x ≠ ',' ∧ x ≠ '(' ∧ x ≠ ')'

/-- The test for a range of characters. -/
theorem Text.and_decide_le_iff {first last x : Char} :
    (decide (first.val ≤ x.val) && decide (x.val ≤ last.val)) = true ↔ first ≤ x ∧ x ≤ last := by
  rw [Bool.and_eq_true, decide_eq_true_iff, decide_eq_true_iff]
  rfl

theorem Text.isDigit_iff {x : Char} : x.isDigit = true ↔ '0' ≤ x ∧ x ≤ '9' := and_decide_le_iff

theorem Text.isAlpha_iff {x : Char} : x.isAlpha = true ↔ IsLetter x := by
  change (x.isUpper || x.isLower) = true ↔ _
  rw [Bool.or_eq_true]
  exact or_congr decide_eq_true_iff and_decide_le_iff

theorem Text.isIdentifier_iff {s : String} : isIdentifier s = true ↔ IsIdentifier s := by
  unfold isIdentifier IsIdentifier
  cases s.toList with
  | nil => simp [isIdentifierList]
  | cons first rest =>
      simp [isIdentifierList, isIdentifierStart, isIdentifierPart, Char.isAlphanum, isDigit_iff,
        isAlpha_iff, or_assoc]

theorem isArgument_iff {s : String} : isArgument s = true ↔ IsArgument s := by
  simp [isArgument, isArgumentList, IsArgument, and_assoc]

instance (s : String) : Decidable (Text.IsIdentifier s) :=
  decidable_of_iff _ Text.isIdentifier_iff

instance (s : String) : Decidable (IsArgument s) := decidable_of_iff _ isArgument_iff

/-! ## Answers -/

/-- The answer to a call, when the given attributes are stored. Of several reasons against an
attribute the first one is told: its name, its display string, an earlier attribute of its name. -/
def Call.answer (stored : List Definition) : Call → Except Refusal Unit
  | .insert d =>
    if ¬ Text.IsIdentifier d.name then .error (.invalidName d.name)
    else if ¬ IsArgument d.display then .error (.invalidDisplay d.name d.display)
    else if ∃ e ∈ stored, e.name = d.name then .error (.duplicateName d.name)
    else .ok ()
  | .compatRule rule => if rule.function = "" then .error (.emptyFunction .compat) else .ok ()
  | .mergeRule rule => if rule.function = "" then .error (.emptyFunction .merge) else .ok ()

/-- Only the names of the stored attributes count. -/
theorem Call.answer_congr {xs ys : List Definition}
    (h : ∀ n, (∃ e ∈ xs, e.name = n) ↔ ∃ e ∈ ys, e.name = n) (call : Call) :
    call.answer xs = call.answer ys := by
  cases call with
  | insert d => simp only [answer, h]
  | compatRule rule => rfl
  | mergeRule rule => rfl

theorem Call.answer_insert_ok {stored : List Definition}
    (h : (Call.insert d).answer stored = .ok ()) :
    Text.IsIdentifier d.name ∧ IsArgument d.display ∧ ∀ e ∈ stored, e.name ≠ d.name := by
  simp only [answer] at h
  split at h
  · cases h
  · rename_i hname
    split at h
    · cases h
    · rename_i hdisplay
      split at h
      · cases h
      · rename_i hfresh
        exact ⟨not_not.mp hname, not_not.mp hdisplay, fun e he heq => hfresh ⟨e, he, heq⟩⟩

/-! ## Additions -/

/-- A rule as it is stored. -/
def CompatRule.normal (rule : CompatRule) : CompatRule :=
  { rule with argument := if rule.argument = some "" then none else rule.argument }

/-- What an accepted call makes of a registry. -/
def Registry.extend (r : Registry) : Call → Registry
  | .insert d => (r.claim d.name).enlist d
  | .compatRule rule => { r with compatRules := r.compatRules ++ [rule.normal] }
  | .mergeRule rule => { r with mergeRules := r.mergeRules ++ [rule] }

/-- All attributes, category by category. -/
def Registry.stored (r : Registry) : List Definition := Category.all.flatMap r.listed

@[simp] theorem Registry.mem_stored : d ∈ r.stored ↔ ∃ c, d ∈ r.listed c := by
  simp [stored]

@[simp] theorem Registry.claim_listed (r : Registry) (n : String) : (r.claim n).listed = r.listed := rfl

theorem Registry.enlist_listed (r : Registry) (d : Definition) (c : Category) :
    (r.enlist d).listed c = r.listed c ++ [d].filter (·.category = c) := by
  by_cases h : c = d.category
  · simp [enlist, h]
  · simp [enlist, h, Ne.symm h]

/-- Over different categories, one of them its own, the attribute is listed exactly once more. -/
theorem Registry.flatMap_enlist_perm (r : Registry) (d : Definition) {cs : List Category}
    (hcs : cs.Nodup) (hd : d.category ∈ cs) :
    (cs.flatMap (r.enlist d).listed).Perm (d :: cs.flatMap r.listed) := by
  obtain ⟨before, after, rfl⟩ := List.append_of_mem hd
  have hout : ∀ xs : List Category, d.category ∉ xs →
      xs.flatMap (r.enlist d).listed = xs.flatMap r.listed := by
    intro xs hxs
    refine List.flatMap_congr fun c hc => ?_
    rw [enlist_listed, List.filter_cons_of_neg, List.filter_nil, List.append_nil]
    simpa using fun h : d.category = c => hxs (h ▸ hc)
  have hbefore : d.category ∉ before := by
    intro h
    exact (List.nodup_append.mp hcs).2.2 _ h _ (by simp) rfl
  have hafter : d.category ∉ after := (List.nodup_cons.mp (List.nodup_append.mp hcs).2.1).1
  simp only [List.flatMap_append, List.flatMap_cons, hout before hbefore, hout after hafter]
  rw [enlist_listed]
  simp only [List.filter_cons, decide_true, List.filter_nil, if_true, List.append_assoc,
    List.singleton_append]
  rw [← List.append_assoc, ← List.append_assoc]
  exact List.perm_middle

/-! ## Single steps -/

theorem Registry.insert_run (d : Definition) (r : Registry) : (Registry.insert d).run.run r =
    if ¬ Text.IsIdentifier d.name then (.error (.invalidName d.name), r)
    else if ¬ IsArgument d.display then (.error (.invalidDisplay d.name d.display), r)
    else if r.hasName d.name = true then (.error (.duplicateName d.name), r)
    else (.ok (), r.extend (.insert d)) := by
  simp only [Registry.insert, ← Text.isIdentifier_iff, ← isArgument_iff]
  cases Text.isIdentifier d.name with
  | false => rfl
  | true =>
      cases isArgument d.display with
      | false => rfl
      | true =>
          -- Reading the state leaves a choice on what was read.
          change ((if r.hasName d.name = true then throw (.duplicateName d.name) else do
            modify (·.claim d.name)
            modify (·.enlist d) : Registration Unit).run).run r = _
          cases r.hasName d.name <;> rfl

theorem Registry.addCompatRule_run (rule : CompatRule) (r : Registry) :
    (Registry.addCompatRule rule).run.run r =
      if rule.function = "" then (.error (.emptyFunction .compat), r)
      else (.ok (), r.extend (.compatRule rule)) := by
  by_cases h : rule.function = "" <;> simp [Registry.addCompatRule, h] <;> rfl

theorem Registry.addMergeRule_run (rule : MergeRule) (r : Registry) :
    (Registry.addMergeRule rule).run.run r =
      if rule.function = "" then (.error (.emptyFunction .merge), r)
      else (.ok (), r.extend (.mergeRule rule)) := by
  by_cases h : rule.function = "" <;> simp [Registry.addMergeRule, h] <;> rfl

/-! ## The invariant -/

/-- The names in use are those of the listed attributes, no two of which share one, and each
attribute is listed under its own category. -/
structure Registry.WellFormed (r : Registry) : Prop where
  names_perm : r.names.Perm (r.stored.map (·.name))
  names_nodup : r.names.Nodup
  category_eq : ∀ c, ∀ e ∈ r.listed c, e.category = c
  identifier : ∀ c, ∀ e ∈ r.listed c, Text.IsIdentifier e.name
  argument : ∀ c, ∀ e ∈ r.listed c, IsArgument e.display

namespace Registry.WellFormed

theorem empty : Registry.WellFormed {} where
  names_perm := by simp [stored]
  names_nodup := List.nodup_nil
  category_eq := by simp
  identifier := by simp
  argument := by simp

theorem stored_nodup (h : r.WellFormed) : (r.stored.map (·.name)).Nodup :=
  h.names_perm.nodup_iff.mp h.names_nodup

theorem hasName_iff (h : r.WellFormed) (n : String) :
    r.hasName n = true ↔ ∃ e ∈ r.stored, e.name = n := by
  rw [hasName, List.contains_iff_mem, h.names_perm.mem_iff, List.mem_map]

/-- Names determine the attributes of a registry. -/
theorem eq_of_name_eq (h : r.WellFormed) {e e' : Definition} (he : e ∈ r.stored)
    (he' : e' ∈ r.stored) (hn : e.name = e'.name) : e = e' :=
  List.inj_on_of_nodup_map h.stored_nodup he he' hn

theorem get?_eq_find? (h : r.WellFormed) (n : String) :
    r.get? n = r.stored.find? (·.name == n) := by
  rw [get?]
  split
  · rfl
  · rename_i hunused
    rw [h.hasName_iff] at hunused
    refine (List.find?_eq_none.mpr fun e he => ?_).symm
    simpa using fun hn => hunused ⟨e, he, hn⟩

theorem get?_eq_some_iff (h : r.WellFormed) (n : String) :
    r.get? n = some d ↔ d ∈ r.stored ∧ d.name = n := by
  rw [h.get?_eq_find?, find?_key_eq_some_iff h.stored_nodup]

theorem get?_eq_none_iff (h : r.WellFormed) (n : String) :
    r.get? n = none ↔ ∀ e ∈ r.stored, e.name ≠ n := by
  simp [h.get?_eq_find?]

/-- The names in use count the attributes of all categories. -/
theorem size_eq (h : r.WellFormed) :
    r.size = (Category.all.map fun c => (r.listed c).length).foldr (· + ·) 0 := by
  rw [size, h.names_perm.length_eq, List.length_map, stored, List.length_flatMap]
  rfl

/-- A step answers as the stored attributes demand, and a refusal changes nothing. -/
theorem run_step (h : r.WellFormed) (call : Call) :
    call.step.run.run r = match call.answer r.stored with
      | .ok () => (.ok (), r.extend call)
      | .error refusal => (.error refusal, r) := by
  cases call with
  | insert d =>
      rw [Call.step, Registry.insert_run, Call.answer]
      simp only [h.hasName_iff]
      split_ifs <;> rfl
  | compatRule rule =>
      rw [Call.step, Registry.addCompatRule_run, Call.answer]
      split_ifs <;> rfl
  | mergeRule rule =>
      rw [Call.step, Registry.addMergeRule_run, Call.answer]
      split_ifs <;> rfl

/-- What is added keeps the invariant. -/
theorem extend (h : r.WellFormed) (hok : call.answer r.stored = .ok ()) :
    (r.extend call).WellFormed := by
  cases call with
  | compatRule rule => exact ⟨h.names_perm, h.names_nodup, h.category_eq, h.identifier, h.argument⟩
  | mergeRule rule => exact ⟨h.names_perm, h.names_nodup, h.category_eq, h.identifier, h.argument⟩
  | insert d =>
      obtain ⟨hname, hdisplay, hfresh⟩ := Call.answer_insert_ok hok
      have hnot : d.name ∉ r.names := by
        rw [h.names_perm.mem_iff, List.mem_map]
        rintro ⟨e, he, heq⟩
        exact hfresh e he heq
      have hnames : (r.extend (.insert d)).names = d.name :: r.names := List.insert_of_not_mem hnot
      have hmem : ∀ c, ∀ e ∈ (r.extend (.insert d)).listed c,
          e ∈ r.listed c ∨ e = d ∧ e.category = c := by
        intro c e he
        simpa [Registry.extend, Registry.enlist_listed] using he
      have hperm : (r.extend (.insert d)).stored.Perm (d :: r.stored) :=
        Registry.flatMap_enlist_perm (r.claim d.name) d (by decide) (Category.mem_all _)
      constructor
      · rw [hnames]
        exact (h.names_perm.cons d.name).trans (hperm.map Definition.name).symm
      · rw [hnames]
        exact List.nodup_cons.mpr ⟨hnot, h.names_nodup⟩
      · intro c e he
        rcases hmem c e he with he | ⟨rfl, hc⟩
        · exact h.category_eq c e he
        · exact hc
      · intro c e he
        rcases hmem c e he with he | ⟨rfl, _⟩
        · exact h.identifier c e he
        · exact hname
      · intro c e he
        rcases hmem c e he with he | ⟨rfl, _⟩
        · exact h.argument c e he
        · exact hdisplay

/-- Every step keeps the invariant, also one that is refused. -/
theorem step (h : r.WellFormed) (call : Call) : (call.step.run.run r).2.WellFormed := by
  rw [h.run_step]
  cases hanswer : call.answer r.stored with
  | ok u => exact h.extend hanswer
  | error refusal => exact h

end Registry.WellFormed

end AttributeTables
