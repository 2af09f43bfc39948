import AttributeTables.Proofs.Registry.Steps

/-!
# What a registry tells about its calls

A registry that was built up by calls, accepted and refused ones in any order, holds exactly what
the accepted ones added, in the order of the calls.
-/

namespace AttributeTables

variable {r : Registry} {calls : List Call}

/-! ## Calls with their answers -/

/-- Each call with its answer, in order. -/
abbrev History := List (Call × Except Refusal Unit)

/-- The history of the calls from a registry on. -/
def Registry.history (r : Registry) (calls : List Call) : History := calls.zip (r.perform calls).1

/-- The calls that were accepted. -/
def History.accepted (h : History) : List Call := (h.filter (·.2.isOk)).map (·.1)

@[simp] theorem History.accepted_ok (call : Call) (u : Unit) (h : History) :
    History.accepted ((call, .ok u) :: h) = call :: h.accepted := rfl

@[simp] theorem History.accepted_error (call : Call) (e : Refusal) (h : History) :
    History.accepted ((call, .error e) :: h) = h.accepted := rfl

/-- The attribute that a call brings. -/
def Call.definition? : Call → Option Definition
  | .insert d => some d
  | .compatRule _ | .mergeRule _ => none

/-- The rule for comparisons that a call brings. -/
def Call.compatRule? : Call → Option CompatRule
  | .compatRule rule => some rule
  | .insert _ | .mergeRule _ => none

/-- The rule for mergers that a call brings. -/
def Call.mergeRule? : Call → Option MergeRule
  | .mergeRule rule => some rule
  | .insert _ | .compatRule _ => none

/-- The attributes that were accepted, in the order of the calls. -/
def History.definitions (h : History) : List Definition := h.accepted.filterMap Call.definition?

/-! ## Runs -/

theorem Registry.perform_cons (r : Registry) (call : Call) (calls : List Call) :
    r.perform (call :: calls) =
      ((call.step.run.run r).1 :: ((call.step.run.run r).2.perform calls).1,
        ((call.step.run.run r).2.perform calls).2) := rfl

theorem Registry.perform_append (r : Registry) (xs ys : List Call) :
    r.perform (xs ++ ys) =
      ((r.perform xs).1 ++ ((r.perform xs).2.perform ys).1, ((r.perform xs).2.perform ys).2) := by
  induction xs generalizing r with
  | nil => rfl
  | cons call xs ih => simp only [List.cons_append, perform_cons, ih]

theorem Registry.history_cons (r : Registry) (call : Call) (calls : List Call) :
    r.history (call :: calls) =
      (call, (call.step.run.run r).1) :: (call.step.run.run r).2.history calls := rfl

theorem Registry.length_answers (r : Registry) (calls : List Call) :
    (r.perform calls).1.length = calls.length := by
  induction calls generalizing r with
  | nil => rfl
  | cons call calls ih => simp only [perform_cons, List.length_cons, ih]

theorem Registry.WellFormed.perform (h : r.WellFormed) (calls : List Call) :
    (r.perform calls).2.WellFormed := by
  induction calls generalizing r with
  | nil => exact h
  | cons call calls ih => exact ih (h.step call)

theorem Registry.wellFormed_ofCalls (calls : List Call) : (Registry.ofCalls calls).WellFormed :=
  Registry.WellFormed.empty.perform calls

/-- A registry is what the accepted calls make of the one at the start. -/
theorem Registry.WellFormed.perform_eq_foldl (h : r.WellFormed) (calls : List Call) :
    (r.perform calls).2 = (r.history calls).accepted.foldl Registry.extend r := by
  induction calls generalizing r with
  | nil => rfl
  | cons call calls ih =>
      have htail := ih (h.step call)
      rw [Registry.perform_cons, Registry.history_cons]
      rw [h.run_step call] at htail ⊢
      cases hanswer : call.answer r.stored with
      | ok u => simpa only [hanswer, History.accepted_ok, List.foldl_cons] using htail
      | error refusal => simpa only [hanswer, History.accepted_error] using htail

/-! ## What accepted calls add -/

theorem Registry.foldl_extend_listed (r : Registry) (calls : List Call) (c : Category) :
    (calls.foldl Registry.extend r).listed c =
      r.listed c ++ (calls.filterMap Call.definition?).filter (·.category = c) := by
  induction calls generalizing r with
  | nil => simp
  | cons call calls ih =>
      rw [List.foldl_cons, ih]
      cases call with
      | insert d =>
          by_cases h : d.category = c <;>
            simp [Registry.extend, Registry.enlist_listed, Call.definition?, h]
      | compatRule rule => rfl
      | mergeRule rule => rfl

theorem Registry.foldl_extend_compatRules (r : Registry) (calls : List Call) :
    (calls.foldl Registry.extend r).compatRules =
      r.compatRules ++ (calls.filterMap Call.compatRule?).map CompatRule.normal := by
  induction calls generalizing r with
  | nil => simp
  | cons call calls ih =>
      rw [List.foldl_cons, ih]
      cases call with
      | insert d => rfl
      | compatRule rule => simp [Registry.extend, Call.compatRule?]
      | mergeRule rule => rfl

theorem Registry.foldl_extend_mergeRules (r : Registry) (calls : List Call) :
    (calls.foldl Registry.extend r).mergeRules =
      r.mergeRules ++ calls.filterMap Call.mergeRule? := by
  induction calls generalizing r with
  | nil => simp
  | cons call calls ih =>
      rw [List.foldl_cons, ih]
      cases call with
      | insert d => rfl
      | compatRule rule => rfl
      | mergeRule rule => simp [Registry.extend, Call.mergeRule?]

/-- The attributes of a category are the accepted ones, in the order of the calls. -/
theorem Registry.ofCalls_listed (calls : List Call) (c : Category) :
    (Registry.ofCalls calls).listed c =
      (Registry.history {} calls).definitions.filter (·.category = c) := by
  rw [Registry.ofCalls, Registry.WellFormed.empty.perform_eq_foldl,
    Registry.foldl_extend_listed]
  rfl

theorem Registry.mem_stored_ofCalls {d : Definition} :
    d ∈ (Registry.ofCalls calls).stored ↔ d ∈ (Registry.history {} calls).definitions := by
  simp [Registry.ofCalls_listed]

/-! ## Answers -/

/-- What came before a call is the history of the calls before it. -/
theorem Registry.history_take (r : Registry) (calls : List Call) (i : Nat) :
    (r.history calls).take i = r.history (calls.take i) := by
  induction calls generalizing r i with
  | nil => simp [history]
  | cons call calls ih =>
      cases i with
      | zero => rfl
      | succ i => rw [history_cons, List.take_succ_cons, List.take_succ_cons, history_cons, ih]

/-- A call is made of the registry that the calls before it left. -/
theorem Registry.history_getElem? {i : Nat} {call : Call} {answer : Except Refusal Unit}
    (hi : (r.history calls)[i]? = some (call, answer)) :
    calls[i]? = some call ∧ answer = (call.step.run.run (r.perform (calls.take i)).2).1 := by
  induction calls generalizing r i with
  | nil => simp [history] at hi
  | cons c calls ih =>
      cases i with
      | zero =>
          simp only [history_cons, List.getElem?_cons_zero, Option.some.injEq, Prod.mk.injEq] at hi
          obtain ⟨rfl, rfl⟩ := hi
          exact ⟨rfl, rfl⟩
      | succ i => exact ih hi

/-- An attribute or rule is accepted or refused on account of the accepted attributes before it. -/
theorem Registry.answer_eq {i : Nat} {call : Call} {answer : Except Refusal Unit}
    (hi : (Registry.history {} calls)[i]? = some (call, answer)) :
    answer = call.answer (History.definitions ((Registry.history {} calls).take i)) := by
  obtain ⟨-, hanswer⟩ := history_getElem? hi
  have hnames : ∀ n, (∃ e ∈ (ofCalls (calls.take i)).stored, e.name = n) ↔
      ∃ e ∈ (history {} (calls.take i)).definitions, e.name = n := by
    intro n
    simp only [mem_stored_ofCalls]
  have hstep := (wellFormed_ofCalls (calls.take i)).run_step call
  rw [Call.answer_congr hnames] at hstep
  rw [hanswer, history_take]
  refine (congrArg Prod.fst hstep).trans ?_
  cases call.answer _ <;> rfl

/-- A refused call leaves the registry as it was. -/
theorem Registry.ofCalls_take_succ {i : Nat} {call : Call} {refusal : Refusal}
    (hi : (Registry.history {} calls)[i]? = some (call, .error refusal)) :
    Registry.ofCalls (calls.take (i + 1)) = Registry.ofCalls (calls.take i) := by
  obtain ⟨hcall, hanswer⟩ := history_getElem? hi
  have hlast : Registry.ofCalls (calls.take (i + 1)) =
      (call.step.run.run (Registry.ofCalls (calls.take i))).2 := by
    rw [List.take_add_one, hcall, Option.toList_some, ofCalls, perform_append]
    rfl
  have hstep := (wellFormed_ofCalls (calls.take i)).run_step call
  rw [hlast, hstep]
  cases h : call.answer (Registry.ofCalls (calls.take i)).stored with
  | ok u =>
      rw [h] at hstep
      exact absurd (hanswer.trans (congrArg Prod.fst hstep)) (by simp)
  | error refusal' => rfl

/-! ## The account -/

/-- After any calls: every call was answered as the attributes accepted before it demand, a refused
one changed nothing, and the registry lists by category, counts and finds what was accepted. -/
theorem Registry.ofCalls_holds_accepted (calls : List Call) :
    let history := Registry.history {} calls
    let r := Registry.ofCalls calls
    history.map (·.1) = calls ∧
    (∀ i call answer, history[i]? = some (call, answer) →
      answer = call.answer (History.definitions (history.take i)) ∧
      (answer.isOk = false →
        Registry.ofCalls (calls.take (i + 1)) = Registry.ofCalls (calls.take i))) ∧
    (∀ c, r.listed c = history.definitions.filter (·.category = c)) ∧
    r.compatRules = (history.accepted.filterMap Call.compatRule?).map CompatRule.normal ∧
    r.mergeRules = history.accepted.filterMap Call.mergeRule? ∧
    r.size = (Category.all.map fun c => (r.listed c).length).foldr (· + ·) 0 ∧
    ((Category.all.flatMap r.listed).map (·.name)).Nodup ∧
    (∀ n d, r.get? n = some d ↔ (∃ c, d ∈ r.listed c) ∧ d.name = n) ∧
    (∀ n, r.get? n = none ↔ ∀ c, ∀ d ∈ r.listed c, d.name ≠ n) := by
  intro history r
  have hwf : r.WellFormed := wellFormed_ofCalls calls
  have hfold : r = history.accepted.foldl extend {} := WellFormed.empty.perform_eq_foldl calls
  refine ⟨?_, ?_, ofCalls_listed calls, ?_, ?_, hwf.size_eq, hwf.stored_nodup, ?_, ?_⟩
  · exact List.map_fst_zip (Nat.le_of_eq (length_answers {} calls).symm)
  · intro i call answer hi
    refine ⟨answer_eq hi, fun hrefused => ?_⟩
    cases answer with
    | ok u => cases hrefused
    | error refusal => exact ofCalls_take_succ hi
  · rw [hfold, foldl_extend_compatRules, List.nil_append]
  · rw [hfold, foldl_extend_mergeRules, List.nil_append]
  · intro n d
    rw [hwf.get?_eq_some_iff, mem_stored]
  · intro n
    rw [hwf.get?_eq_none_iff]
    exact ⟨fun h c d hd => h d (mem_stored.mpr ⟨c, hd⟩), fun h d hd => by
      obtain ⟨c, hc⟩ := mem_stored.mp hd
      exact h c d hc⟩

-- A refused name is free for a later attribute.
example : (Registry.history {} [.insert ⟨"A", .enum, "a b", []⟩, .insert ⟨"A", .int, "a", []⟩,
    .insert ⟨"A", .enum, "c", []⟩, .compatRule ⟨"", none⟩]).map (·.2) =
    [.error (.invalidDisplay "A" "a b"), .ok (), .error (.duplicateName "A"),
      .error (.emptyFunction .compat)] := rfl

end AttributeTables
