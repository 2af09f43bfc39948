import AttributeTables.Output
import AttributeTables.Proofs.Registry.Acceptance
import AttributeTables.Registry.Listing
import Mathlib.Data.List.Count

/-!
# Interleavings of calls

Calls that bring attributes of different categories, or rules of different kinds, can change places.
Whether all of a sequence is accepted is a matter of its calls, each by itself, and of the names that
they bring, so no order counts there; an accepted call adds to one list and leaves the others alone.
-/

namespace AttributeTables

variable {r r' : Registry} {xs ys calls : List Call}

/-! ## Streams -/

/-- The calls bring the same attributes of each category and the same rules of each kind, each in the
same order. -/
structure SameStreams (xs ys : List Call) : Prop where
  definitions : ∀ c, (xs.filterMap Call.definition?).filter (·.category = c) =
    (ys.filterMap Call.definition?).filter (·.category = c)
  compatRules : xs.filterMap Call.compatRule? = ys.filterMap Call.compatRule?
  mergeRules : xs.filterMap Call.mergeRule? = ys.filterMap Call.mergeRule?

theorem Call.count_eq_count_filterMap {α : Type} [BEq α] [LawfulBEq α] {stream : Call → Option α}
    {call : Call} {a : α} (h : ∀ c, stream c = some a ↔ c = call) :
    calls.count call = (calls.filterMap stream).count a := by
  rw [List.count_filterMap, List.count]
  refine List.countP_congr fun c _ => ?_
  rw [beq_iff_eq, beq_iff_eq, h]

theorem Call.definition?_eq_some_iff {call : Call} {d : Definition} :
    call.definition? = some d ↔ call = .insert d := by
  cases call <;> simp [definition?]

theorem Call.compatRule?_eq_some_iff {call : Call} {rule : CompatRule} :
    call.compatRule? = some rule ↔ call = .compatRule rule := by
  cases call <;> simp [compatRule?]

theorem Call.mergeRule?_eq_some_iff {call : Call} {rule : MergeRule} :
    call.mergeRule? = some rule ↔ call = .mergeRule rule := by
  cases call <;> simp [mergeRule?]

theorem SameStreams.perm (h : SameStreams xs ys) : xs.Perm ys := by
  rw [List.perm_iff_count]
  intro call
  cases call with
  | insert d =>
      have hcategory := congrArg (List.count d) (h.definitions d.category)
      rw [List.count_filter (by simp), List.count_filter (by simp)] at hcategory
      rw [Call.count_eq_count_filterMap fun _ => Call.definition?_eq_some_iff,
        Call.count_eq_count_filterMap fun _ => Call.definition?_eq_some_iff, hcategory]
  | compatRule rule =>
      rw [Call.count_eq_count_filterMap fun _ => Call.compatRule?_eq_some_iff,
        Call.count_eq_count_filterMap fun _ => Call.compatRule?_eq_some_iff, h.compatRules]
  | mergeRule rule =>
      rw [Call.count_eq_count_filterMap fun _ => Call.mergeRule?_eq_some_iff,
        Call.count_eq_count_filterMap fun _ => Call.mergeRule?_eq_some_iff, h.mergeRules]

/-! ## Acceptance -/

theorem Registry.WellFormed.answers_ok_of_perm (h : r.WellFormed) (hperm : xs.Perm ys)
    (hok : ∀ answer ∈ (r.perform xs).1, answer = .ok ()) :
    ∀ answer ∈ (r.perform ys).1, answer = .ok () := by
  rw [h.answers_ok_iff] at hok ⊢
  obtain ⟨hsound, hnames⟩ := hok
  have hdefinitions := ((hperm.filterMap Call.definition?).append_left r.stored).map Definition.name
  exact ⟨fun call hcall => hsound call (hperm.mem_iff.mpr hcall), hdefinitions.nodup_iff.mp hnames⟩

/-! ## What is left of the order -/

theorem SameStreams.catalogue_eq (h : SameStreams xs ys) (hwf : r.WellFormed)
    (hxs : ∀ answer ∈ (r.perform xs).1, answer = .ok ())
    (hys : ∀ answer ∈ (r.perform ys).1, answer = .ok ()) :
    (r.perform xs).2.catalogue = (r.perform ys).2.catalogue := by
  rw [hwf.perform_eq_foldl, hwf.perform_eq_foldl, Registry.accepted_eq_of_answers_ok hxs,
    Registry.accepted_eq_of_answers_ok hys]
  have hlisted : (xs.foldl Registry.extend r).listed = (ys.foldl Registry.extend r).listed := by
    funext c
    rw [Registry.foldl_extend_listed, Registry.foldl_extend_listed, h.definitions]
  simp only [Registry.catalogue, hlisted, Registry.foldl_extend_compatRules, h.compatRules,
    Registry.foldl_extend_mergeRules, h.mergeRules]

/-! ## What a catalogue determines -/

section Catalogues

variable (h : r.WellFormed) (h' : r'.WellFormed) (hk : r.catalogue = r'.catalogue)
include hk

theorem Registry.listed_congr : r.listed = r'.listed := congrArg Catalogue.listed hk

theorem Registry.listing_congr : r.listing = r'.listing := by
  have hcategory : r.categoryLines = r'.categoryLines := by
    funext c
    rw [categoryLines, categoryLines, listed_congr hk]
  have hcompat : r.compatRules = r'.compatRules := congrArg Catalogue.compatRules hk
  have hmerge : r.mergeRules = r'.mergeRules := congrArg Catalogue.mergeRules hk
  rw [listing, listing, listingLines, listingLines, hcategory, hcompat, hmerge]

include h h'

theorem Registry.WellFormed.size_congr : r.size = r'.size := by
  rw [h.size_eq, h'.size_eq, Registry.listed_congr hk]

theorem Registry.WellFormed.get?_congr (n : String) : r.get? n = r'.get? n := by
  rw [h.get?_eq_find?, h'.get?_eq_find?, Registry.stored, Registry.stored, Registry.listed_congr hk]

end Catalogues

/-- The order of calls counts within each category and each kind of rule only: in another order that
keeps it, all calls are accepted again, and nothing that can be asked of the registry or generated from
it differs. -/
theorem Registry.ofCalls_interleaved (h : SameStreams xs ys)
    (hok : ∀ answer ∈ (Registry.perform {} xs).1, answer = .ok ()) :
    let r := Registry.ofCalls xs
    let r' := Registry.ofCalls ys
    (∀ answer ∈ (Registry.perform {} ys).1, answer = .ok ()) ∧
    (∀ c, r.listed c = r'.listed c) ∧
    r.compatRules = r'.compatRules ∧
    r.mergeRules = r'.mergeRules ∧
    r.size = r'.size ∧
    (∀ n, r.get? n = r'.get? n) ∧
    r.listing = r'.listing ∧
    Layout.assign r.catalogue = Layout.assign r'.catalogue ∧
    PropertyTable.build r.catalogue = PropertyTable.build r'.catalogue ∧
    (∀ options, Output.generate r.catalogue options = Output.generate r'.catalogue options) ∧
    ∀ style selected, Output.generateSections r.catalogue style selected =
      Output.generateSections r'.catalogue style selected := by
  intro r r'
  have hwf : r.WellFormed := wellFormed_ofCalls xs
  have hwf' : r'.WellFormed := wellFormed_ofCalls ys
  have hok' := WellFormed.empty.answers_ok_of_perm h.perm hok
  have hk : r.catalogue = r'.catalogue := h.catalogue_eq WellFormed.empty hok hok'
  refine ⟨hok', congrFun (listed_congr hk), congrArg Catalogue.compatRules hk,
    congrArg Catalogue.mergeRules hk, hwf.size_congr hwf' hk, hwf.get?_congr hwf' hk,
    listing_congr hk, ?_, ?_, fun options => ?_, fun style selected => ?_⟩
  all_goals rw [hk]

/-- Two streams of attributes and two of rules, once taken in turns and once one after the other. -/
theorem Registry.ofCalls_interleaved_four_streams :
    let hot : Call := .insert ⟨"Hot", .enum, "hot", [⟨1⟩]⟩
    let cold : Call := .insert ⟨"Cold", .enum, "cold", []⟩
    let align : Call := .insert ⟨"Align", .int, "align", [⟨32⟩]⟩
    let text : Call := .compatRule ⟨"isEqual", some "text"⟩
    let plain : Call := .compatRule ⟨"isEqual", some ""⟩
    let merge : Call := .mergeRule ⟨"setAnd"⟩
    let xs := [hot, text, align, plain, cold, merge]
    let ys := [merge, text, plain, hot, cold, align]
    SameStreams xs ys ∧ (∀ answer ∈ (Registry.perform {} xs).1, answer = .ok ()) ∧
      (∀ answer ∈ (Registry.perform {} ys).1, answer = .ok ()) ∧
      (Registry.ofCalls xs).size = (Registry.ofCalls ys).size ∧
      (Registry.ofCalls xs).listing = (Registry.ofCalls ys).listing ∧
      ∀ options, Output.generate (Registry.ofCalls xs).catalogue options =
        Output.generate (Registry.ofCalls ys).catalogue options := by
  intro hot cold align text plain merge xs ys
  have hstreams : SameStreams xs ys :=
    ⟨fun c => by cases c <;> rfl, rfl, rfl⟩
  have hanswers : (Registry.perform {} xs).1 = List.replicate 6 (.ok ()) := rfl
  have hok : ∀ answer ∈ (Registry.perform {} xs).1, answer = .ok () := by
    rw [hanswers]
    exact fun answer => List.eq_of_mem_replicate
  obtain ⟨hok', -, -, -, hsize, -, hlisting, -, -, hgenerate, -⟩ :=
    Registry.ofCalls_interleaved hstreams hok
  exact ⟨hstreams, hok, hok', hsize, hlisting, hgenerate⟩

end AttributeTables
