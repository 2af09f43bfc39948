import AttributeTables.Files.Tree
import AttributeTables.Proofs.Traversals
import Mathlib.Tactic.SplitIfs

/-!
# Locations of files

Where a path leads depends on the directories, and what can be put there also on the files that refuse
to be replaced. A file that comes or goes changes none of them, so a path leads to the same location
before and after a file was replaced, and can be written to if it could be before.
-/

namespace AttributeTables

namespace Files.Tree

variable {t t' : Tree} {l k working : Location} {p : Path} {contents : ByteArray} {n n' : Node}

/-! ## One node more, one node less -/

theorem node?_insert_self (hl : l ≠ []) : (t.insert l n).node? l = some n := by
  simp [node?_insert t hl]

theorem node?_insert_of_ne (hl : l ≠ []) (hk : k ≠ l) : (t.insert l n).node? k = t.node? k := by
  simp [node?_insert t hl, hk]

/-- Nothing at the location keeps a file from being moved there. -/
def IsOpen (t : Tree) (l : Location) : Prop := (t.node? l).bind Node.replaceFault? = none

theorem isOpen_of_free (h : t.node? l = none) : t.IsOpen l := by
  rw [IsOpen, h]
  rfl

theorem IsOpen.ne_nil (h : t.IsOpen l) : l ≠ [] := by
  rintro rfl
  cases h

theorem erase_of_free (h : t.node? l = none) : t.erase l = t := by
  cases l with
  | nil => cases h
  | cons name l =>
      have hkeys : ∀ e ∈ t.nodes, (e.1 != name :: l) = true := by
        intro e he
        rw [bne_comm]
        exact List.lookup_eq_none_iff.mp h e he
      rw [erase, List.filter_eq_self.mpr hkeys]

theorem erase_insert (t : Tree) (l : Location) (n : Node) : (t.insert l n).erase l = t.erase l := by
  simp [erase, insert]

theorem insert_insert (t : Tree) (l : Location) (n n' : Node) :
    (t.insert l n).insert l n' = t.insert l n' := by
  rw [insert, erase_insert, insert]

/-- A node that goes from a location that was free to another one leaves nothing behind. -/
theorem move_insert_of_free (h : t.node? l = none) (k : Location) :
    (t.insert l n).move l k = t.insert k n := by
  have hl : l ≠ [] := (isOpen_of_free h).ne_nil
  rw [move, node?_insert_self hl]
  simp only [erase_insert, erase_of_free h]

/-! ## Fixtures -/

/-- The trees have the same nodes that no file can take the place of: directories, and files that
refuse to be replaced. -/
def SameFixtures (t t' : Tree) : Prop :=
  ∀ l n, n.replaceFault? ≠ none → (t.node? l = some n ↔ t'.node? l = some n)

theorem SameFixtures.refl (t : Tree) : SameFixtures t t := fun _ _ _ => Iff.rfl

theorem SameFixtures.trans {t'' : Tree} (h : SameFixtures t t') (h' : SameFixtures t' t'') :
    SameFixtures t t'' :=
  fun l n hn => (h l n hn).trans (h' l n hn)

theorem SameFixtures.insert_file (h : t.IsOpen l) (contents : ByteArray) :
    SameFixtures t (t.insert l (.file contents)) := by
  intro k n hn
  rw [node?_insert t h.ne_nil]
  by_cases hk : k = l
  · subst hk
    rw [if_pos rfl]
    -- Neither the node that was there nor the new file is fixed.
    refine iff_of_false (fun hnode => hn ?_) ?_
    · rw [IsOpen, hnode] at h
      exact h
    · rintro ⟨⟩
      exact hn rfl
  · rw [if_neg hk]

theorem SameFixtures.directory_iff (h : SameFixtures t t') (r : DirectoryRefusals) :
    t.node? l = some (.directory r) ↔ t'.node? l = some (.directory r) :=
  h l (.directory r) nofun

theorem SameFixtures.isOpen_iff (h : SameFixtures t t') : t.IsOpen l ↔ t'.IsOpen l := by
  have hclosed : ∀ t : Tree, ¬ t.IsOpen l ↔ ∃ n, n.replaceFault? ≠ none ∧ t.node? l = some n := by
    intro t
    rw [IsOpen]
    cases t.node? l <;> simp
  rw [← not_iff_not, hclosed, hclosed]
  exact exists_congr fun n => and_congr_right fun hn => h l n hn

theorem node?_of_step {piece : String} (h : t.step l piece = .ok k) :
    ∃ r, t.node? l = some (.directory r) := by
  rw [step] at h
  split at h
  case h_3 r hnode => exact ⟨r, hnode⟩
  all_goals cases h

theorem checkPath_eq_ok_iff {zero zero' : Fault} {u : Unit} :
    checkPath p zero = .ok u ↔ checkPath p zero' = .ok u := by
  simp only [checkPath]
  split_ifs <;> simp

theorem check_bind_eq_ok_iff {α : Type} {fault? : Option Fault} {a : α}
    {next : Unit → Except Fault α} :
    (Fault.check fault? >>= next) = .ok a ↔ fault? = none ∧ next () = .ok a := by
  rw [bind_eq_ok_iff]
  simp only [Fault.check_eq_ok_iff, exists_and_left]
  exact and_congr_right fun _ => ⟨fun ⟨_, h⟩ => h, fun h => ⟨(), h⟩⟩

/-- The location of a target is where its path leads, and a file can be moved there. -/
theorem locate_of_locateTarget (h : t.locateTarget working p = .ok l) :
    t.locate working p = .ok l ∧ t.IsOpen l := by
  obtain ⟨u, hcheck, h⟩ := bind_eq_ok_iff.mp h
  dsimp only at h
  cases hpieces : p.pieces.reverse.dropWhile (· == "") with
  | nil =>
      rw [hpieces] at h
      cases h
  | cons last before =>
      rw [hpieces] at h
      obtain ⟨directory, hdirectory, h⟩ := bind_eq_ok_iff.mp h
      obtain ⟨k, hk, h⟩ := bind_eq_ok_iff.mp h
      split_ifs at h with hdot htrailing
      obtain ⟨-, h⟩ := check_bind_eq_ok_iff.mp h
      obtain ⟨hopen, h⟩ := check_bind_eq_ok_iff.mp h
      cases h
      have hall : p.pieces.reverse = last :: before := by
        rw [← hpieces]
        cases hreverse : p.pieces.reverse with
        | nil => rfl
        | cons piece rest =>
            rw [hreverse] at htrailing
            rw [List.dropWhile_cons_of_neg (by simpa using htrailing)]
      have hp : p.pieces = before.reverse ++ [last] := by
        rw [← List.reverse_reverse p.pieces, hall, List.reverse_cons]
      refine ⟨?_, hopen⟩
      rw [locate, hp, List.foldlM_append, hdirectory, checkPath_eq_ok_iff.mp hcheck]
      exact (bind_pure (t.step directory last)).trans hk

section SameFixtures

variable (h : SameFixtures t t')
include h

theorem SameFixtures.step_eq_ok_iff {piece : String} :
    t.step l piece = .ok k ↔ t'.step l piece = .ok k := by
  by_cases hl : ∃ r, t.node? l = some (.directory r)
  · obtain ⟨r, hr⟩ := hl
    rw [step, step, hr, (h.directory_iff r).mp hr]
  · refine iff_of_false (fun hstep => hl (node?_of_step hstep)) fun hstep => hl ?_
    obtain ⟨r, hr⟩ := node?_of_step hstep
    exact ⟨r, (h.directory_iff r).mpr hr⟩

theorem SameFixtures.foldlM_step_eq_ok_iff {pieces : List String} :
    pieces.foldlM t.step l = .ok k ↔ pieces.foldlM t'.step l = .ok k := by
  induction pieces generalizing l with
  | nil => rfl
  | cons piece pieces ih =>
      rw [List.foldlM_cons, List.foldlM_cons, bind_eq_ok_iff, bind_eq_ok_iff]
      simp only [h.step_eq_ok_iff, ih]

theorem SameFixtures.locate_eq_ok_iff :
    t.locate working p = .ok l ↔ t'.locate working p = .ok l := by
  rw [locate, locate, bind_eq_ok_iff, bind_eq_ok_iff]
  simp only [h.foldlM_step_eq_ok_iff]

theorem SameFixtures.changeFault?_eq (hstep : ∃ piece k, t.step l piece = .ok k) :
    (t'.node? l).bind Node.changeFault? = (t.node? l).bind Node.changeFault? := by
  obtain ⟨piece, k, hstep⟩ := hstep
  obtain ⟨r, hr⟩ := node?_of_step hstep
  rw [hr, (h.directory_iff r).mp hr]

theorem SameFixtures.locateTarget_eq_ok_iff :
    t.locateTarget working p = .ok l ↔ t'.locateTarget working p = .ok l := by
  simp only [locateTarget, bind_eq_ok_iff]
  refine exists_congr fun u => and_congr_right fun _ => ?_
  split
  · rfl
  · simp only [bind_eq_ok_iff, h.foldlM_step_eq_ok_iff]
    refine exists_congr fun directory => and_congr_right fun _ => exists_congr fun k => ?_
    rw [h.step_eq_ok_iff]
    refine and_congr_right fun hstep => ?_
    rw [h.changeFault?_eq ⟨_, _, h.step_eq_ok_iff.mpr hstep⟩]
    split_ifs
    · rfl
    · rfl
    · simp only [check_bind_eq_ok_iff]
      exact and_congr_right fun _ => and_congr_left fun _ => h.isOpen_iff

end SameFixtures

/-- The nodes of which the contents can be read. -/
theorem read_eq_ok_iff : t.read working p = .ok contents ↔
    ∃ l refusals, t.locate working p = .ok l ∧ t.node? l = some (.file contents refusals) ∧
      refusals.read = none := by
  rw [read, bind_eq_ok_iff]
  refine exists_congr fun l => ?_
  rw [exists_and_left]
  refine and_congr_right fun _ => ?_
  cases t.node? l with
  | none => simp
  | some n =>
      cases n with
      | directory r => simp
      | file bytes r =>
          simp only [check_bind_eq_ok_iff, Option.some.injEq, Node.file.injEq]
          constructor
          · rintro ⟨hread, ⟨⟩⟩
            exact ⟨r, ⟨rfl, rfl⟩, hread⟩
          · rintro ⟨_, ⟨rfl, rfl⟩, hread⟩
            exact ⟨hread, rfl⟩

/-! ## Temporary files -/

theorem le_foldl_max {α : Type} (f : α → Nat) (as : List α) (bound : Nat) :
    bound ≤ as.foldl (fun n a => max n (f a)) bound ∧
      ∀ a ∈ as, f a ≤ as.foldl (fun n a => max n (f a)) bound := by
  induction as generalizing bound with
  | nil => exact ⟨Nat.le_refl bound, nofun⟩
  | cons first as ih =>
      obtain ⟨hbound, hmem⟩ := ih (max bound (f first))
      refine ⟨Nat.le_trans (Nat.le_max_left _ _) hbound, fun a ha => ?_⟩
      rcases List.mem_cons.mp ha with rfl | ha
      · exact Nat.le_trans (Nat.le_max_right _ _) hbound
      · exact hmem a ha

theorem le_longestName {e : Location × Node} {name : String} (he : e ∈ t.nodes)
    (hname : e.1.getLast? = some name) : name.length ≤ t.longestName := by
  have hle : (e.1.getLast?.map String.length).getD 0 ≤ t.longestName :=
    (le_foldl_max (fun e : Location × Node => (e.1.getLast?.map String.length).getD 0)
      t.nodes 0).2 e he
  rw [hname] at hle
  exact hle

theorem length_temporaryName (n : Nat) : (temporaryName n).length = 10 + n := by
  have hprefix : ".tmp".length = 4 := by decide
  rw [temporaryName, String.length_append, hprefix, String.length_ofList, List.length_replicate]
  omega

/-- A temporary file never takes the place of another node. -/
theorem node?_freeName (t : Tree) (l : Location) : t.node? (l ++ [t.freeName l]) = none := by
  rw [freeName]
  split_ifs with hfree
  · exact Option.isNone_iff_eq_none.mp hfree
  · rw [node?, if_neg (by simp), List.lookup_eq_none_iff]
    intro e he
    rw [bne_iff_ne]
    rintro heq
    have hlast : e.1.getLast? = some (temporaryName t.longestName) := by
      rw [← heq, List.getLast?_concat]
    -- The name is longer than every name in the tree.
    have hlength := le_longestName he hlast
    rw [length_temporaryName] at hlength
    omega

theorem locateTemporary_eq_ok_iff : t.locateTemporary working p = .ok l ↔
    ∃ k r, t.locate working p = .ok k ∧ t.node? k = some (.directory r) ∧
      r.search = none ∧ r.change = none ∧ l = k ++ [t.freeName k] := by
  rw [locateTemporary, bind_eq_ok_iff]
  refine exists_congr fun k => ?_
  rw [exists_and_left]
  refine and_congr_right fun _ => ?_
  cases t.node? k with
  | none => simp
  | some n =>
      cases n with
      | file bytes r => simp
      | directory r =>
          simp only [check_bind_eq_ok_iff, Option.some.injEq, Node.directory.injEq]
          constructor
          · rintro ⟨hsearch, hchange, ⟨⟩⟩
            exact ⟨r, rfl, hsearch, hchange, rfl⟩
          · rintro ⟨_, rfl, hsearch, hchange, rfl⟩
            exact ⟨hsearch, hchange, rfl⟩

theorem node?_of_locateTemporary (h : t.locateTemporary working p = .ok l) : t.node? l = none := by
  obtain ⟨k, -, -, -, -, -, rfl⟩ := locateTemporary_eq_ok_iff.mp h
  exact t.node?_freeName k

theorem SameFixtures.exists_locateTemporary_iff (h : SameFixtures t t') :
    (∃ l, t.locateTemporary working p = .ok l) ↔ ∃ l, t'.locateTemporary working p = .ok l := by
  simp only [locateTemporary_eq_ok_iff, h.locate_eq_ok_iff, h.directory_iff]
  constructor
  all_goals
    rintro ⟨l, k, r, hk, hnode, hsearch, hchange, rfl⟩
    exact ⟨_, k, r, hk, hnode, hsearch, hchange, rfl⟩

end Files.Tree

end AttributeTables
