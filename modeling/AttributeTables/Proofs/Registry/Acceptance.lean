import AttributeTables.Proofs.Registry.History
import AttributeTables.Proofs.Traversals

/-!
# Calls that are all accepted

Whether all of a sequence of calls is accepted is a matter of its calls, each by itself, and of the
names that they bring. Taken up to the first refusal, a sequence either goes through as a whole, or
it is refused for the first call that is.
-/

namespace AttributeTables

variable {r r' : Registry} {calls : List Call}

/-! ## Single calls -/

/-- The call is acceptable as far as no other one counts. -/
def Call.IsSound : Call → Prop
  | .insert d => Text.IsIdentifier d.name ∧ IsArgument d.display
  | .compatRule rule => rule.function ≠ ""
  | .mergeRule rule => rule.function ≠ ""

theorem Call.answer_eq_ok_iff {stored : List Definition} (hstored : (stored.map (·.name)).Nodup)
    (call : Call) : call.answer stored = .ok () ↔
      call.IsSound ∧ ((stored ++ call.definition?.toList).map (·.name)).Nodup := by
  cases call with
  | insert d =>
      have hnew : ((stored ++ (Call.insert d).definition?.toList).map (·.name)).Nodup ↔
          ¬ ∃ e ∈ stored, e.name = d.name := by
        rw [definition?, Option.toList_some, List.map_append, List.map_singleton,
          ← List.concat_eq_append, List.nodup_concat, List.mem_map]
        exact and_iff_left hstored
      rw [hnew, answer, IsSound]
      split_ifs <;> simp_all
  | compatRule rule => simpa [answer, IsSound, definition?] using fun _ => hstored
  | mergeRule rule => simpa [answer, IsSound, definition?] using fun _ => hstored

theorem Registry.stored_extend_perm (r : Registry) (call : Call) :
    (r.extend call).stored.Perm (r.stored ++ call.definition?.toList) := by
  cases call with
  | insert d =>
      have hcons : (r.extend (.insert d)).stored.Perm (d :: r.stored) :=
        (r.claim d.name).flatMap_enlist_perm d (by decide) (Category.mem_all _)
      exact hcons.trans (List.perm_append_singleton d r.stored).symm
  | compatRule rule => exact .of_eq (List.append_nil _).symm
  | mergeRule rule => exact .of_eq (List.append_nil _).symm

theorem Registry.WellFormed.result_eq_ok_iff (h : r.WellFormed) {call : Call} {r' : Registry} :
    call.step.result r = .ok r' ↔ call.answer r.stored = .ok () ∧ r' = r.extend call := by
  rw [Registration.result, h.run_step]
  cases call.answer r.stored with
  | ok u => simp [eq_comm]
  | error refusal => simp

theorem Registry.WellFormed.result_eq_error_iff (h : r.WellFormed) {call : Call} {refusal : Refusal} :
    call.step.result r = .error refusal ↔ call.answer r.stored = .error refusal := by
  rw [Registration.result, h.run_step]
  cases call.answer r.stored with
  | ok u => simp
  | error refusal' => simp

/-! ## Sequences -/

/-- All calls are accepted if and only if each is acceptable by itself and no name comes twice. -/
theorem Registry.WellFormed.answers_ok_iff (h : r.WellFormed) (calls : List Call) :
    (∀ answer ∈ (r.perform calls).1, answer = .ok ()) ↔
      (∀ call ∈ calls, call.IsSound) ∧
        ((r.stored ++ calls.filterMap Call.definition?).map (·.name)).Nodup := by
  induction calls generalizing r with
  | nil => exact iff_of_true (by simp [Registry.perform]) ⟨by simp, by simpa using h.stored_nodup⟩
  | cons call calls ih =>
      have hstreams : r.stored ++ (call :: calls).filterMap Call.definition? =
          (r.stored ++ call.definition?.toList) ++ calls.filterMap Call.definition? := by
        rw [List.append_assoc]
        cases call <;> rfl
      rw [Registry.perform_cons, List.forall_mem_cons, List.forall_mem_cons, hstreams, h.run_step]
      cases hanswer : call.answer r.stored with
      | ok u =>
          obtain ⟨hsound, -⟩ := (Call.answer_eq_ok_iff h.stored_nodup call).mp hanswer
          have hnames := ((r.stored_extend_perm call).append_right
            (calls.filterMap Call.definition?)).map Definition.name
          simp only [ih (h.extend hanswer), hsound, hnames.nodup_iff, true_and]
      | error refusal =>
          refine iff_of_false (fun hall => by cases hall.1) ?_
          rintro ⟨⟨hsound, -⟩, hnodup⟩
          rw [List.map_append] at hnodup
          have hok := (Call.answer_eq_ok_iff h.stored_nodup call).mpr
            ⟨hsound, (List.nodup_append.mp hnodup).1⟩
          rw [hanswer] at hok
          cases hok

theorem Registry.accepted_eq_of_answers_ok (h : ∀ answer ∈ (r.perform calls).1, answer = .ok ()) :
    (r.history calls).accepted = calls := by
  induction calls generalizing r with
  | nil => rfl
  | cons call calls ih =>
      rw [perform_cons, List.forall_mem_cons] at h
      rw [history_cons, h.1, History.accepted_ok, ih h.2]

/-- Takes the calls one after the other, up to the first refusal. -/
def Registry.acceptAll (r : Registry) (calls : List Call) : Except Refusal Registry :=
  calls.foldlM (fun r call => call.step.result r) r

theorem Registry.WellFormed.acceptAll_cons (h : r.WellFormed) (call : Call) (calls : List Call) :
    r.acceptAll (call :: calls) =
      call.answer r.stored >>= fun _ => (r.extend call).acceptAll calls := by
  rw [Registry.acceptAll, List.foldlM_cons, Registration.result, h.run_step]
  cases call.answer r.stored <;> rfl

theorem Registry.WellFormed.acceptAll_eq_ok_iff_answers (h : r.WellFormed) :
    r.acceptAll calls = .ok r' ↔
      (∀ answer ∈ (r.perform calls).1, answer = .ok ()) ∧ r' = (r.perform calls).2 := by
  induction calls generalizing r with
  | nil => simp [Registry.acceptAll, Registry.perform, pure, Except.pure, eq_comm]
  | cons call calls ih =>
      rw [h.acceptAll_cons, bind_eq_ok_iff, Registry.perform_cons, h.run_step]
      cases hanswer : call.answer r.stored with
      | ok u => simp [ih (h.extend hanswer)]
      | error refusal => simp

/-- A sequence goes through if and only if each call is acceptable by itself and no name comes
twice. -/
theorem Registry.WellFormed.acceptAll_eq_ok_iff (h : r.WellFormed) :
    r.acceptAll calls = .ok r' ↔
      (∀ call ∈ calls, call.IsSound) ∧
        ((r.stored ++ calls.filterMap Call.definition?).map (·.name)).Nodup ∧
        r' = calls.foldl Registry.extend r := by
  rw [h.acceptAll_eq_ok_iff_answers, ← and_assoc, ← h.answers_ok_iff]
  refine and_congr_right fun hok => ?_
  rw [h.perform_eq_foldl, Registry.accepted_eq_of_answers_ok hok]

theorem Registry.WellFormed.acceptAll (h : r.WellFormed) (haccept : r.acceptAll calls = .ok r') :
    r'.WellFormed := by
  obtain ⟨-, rfl⟩ := h.acceptAll_eq_ok_iff_answers.mp haccept
  exact h.perform calls

end AttributeTables
