import AttributeTables.Depfile
import Mathlib.Data.List.Basic
import Mathlib.Tactic.SplitIfs

/-!
# Rules that are read back

A reader for the rules of dependency files. The target ends at the first colon, prerequisites are
separated by blanks, and a backslash takes its meaning from what it stands before. Only spaces are
escaped when a rule is written, so a rule gives back its paths exactly if nothing else in them has a
meaning in rules.
-/

namespace AttributeTables.Depfile

variable {c : Char} {name cs rest : List Char}

/-! ## The reader -/

/-- The character ends the name of a prerequisite. -/
def endsPrerequisite (c : Char) : Bool := c == ' ' || c == '\t' || c == '\n'

/-- The target and what follows its colon. -/
def readTarget : List Char → Option (List Char × List Char)
  | [] => none
  | [c] => if c = ':' then some ([], []) else none
  | c :: d :: cs =>
    if c = ':' then some ([], d :: cs)
    else if c = '\n' then none
    else if c = '\\' ∧ (d = ' ' ∨ d = ':') then
      (readTarget cs).map fun (name, rest) => (d :: name, rest)
    else (readTarget (d :: cs)).map fun (name, rest) => (c :: name, rest)

/-- Puts a character in front of the first piece. -/
def prependChar (c : Char) : List (List Char) → List (List Char)
  | [] => [[c]]
  | piece :: pieces => (c :: piece) :: pieces

/-- The pieces between blanks, up to the newline that ends the rule. Next to other blanks they are
empty. -/
def readPieces : List Char → Option (List (List Char))
  | [] => none
  | [c] => if c = '\n' then some [[]] else none
  | c :: d :: cs =>
    if c = '\n' then none
    else if endsPrerequisite c then (readPieces (d :: cs)).map ([] :: ·)
    else if c = '\\' ∧ endsPrerequisite d then (readPieces cs).map (prependChar d)
    else (readPieces (d :: cs)).map (prependChar c)

/-- The prerequisites up to the end of the rule. -/
def readPrerequisites (cs : List Char) : Option (List (List Char)) :=
  (readPieces cs).map fun pieces => pieces.filter (· ≠ [])

/-- The target and the prerequisites of a rule. -/
def readRule (text : String) : Option (Path × List Path) := do
  let (target, rest) ← readTarget text.toList
  let names ← readPrerequisites rest
  return (⟨String.ofList target⟩, names.map fun name => ⟨String.ofList name⟩)

/-! ## Names without a meaning -/

/-- A name that can be a target as it is, but for its spaces. -/
structure IsTarget (name : List Char) : Prop where
  colon : ':' ∉ name
  newline : '\n' ∉ name
  backslash : name.getLast? ≠ some '\\'

/-- A name that can be a prerequisite as it is, but for its spaces. -/
structure IsPrerequisite (name : List Char) : Prop where
  ne_nil : name ≠ []
  tab : '\t' ∉ name
  newline : '\n' ∉ name
  backslash : name.getLast? ≠ some '\\'

/-- The characters of an escaped path. -/
abbrev escapeList (cs : List Char) : List Char := cs.flatMap escapeChar

theorem escapeChar_space : escapeChar ' ' = ['\\', ' '] := rfl

theorem escapeChar_of_ne (h : c ≠ ' ') : escapeChar c = [c] := by
  simp [escapeChar, h]

/-- An escaped text starts with no space, and with any other character only if the text does. -/
theorem head?_escapeList_append {x : Char} (h : (escapeList cs ++ rest).head? = some x)
    (hx : x ≠ '\\') : (x ≠ ' ' ∨ cs = []) ∧ (cs ++ rest).head? = some x := by
  cases cs with
  | nil => exact ⟨.inr rfl, h⟩
  | cons d cs =>
      by_cases hd : d = ' '
      · subst hd
        exact absurd (Option.some.inj h).symm hx
      · rw [escapeList, List.flatMap_cons, escapeChar_of_ne hd] at h
        cases h
        exact ⟨.inl hd, rfl⟩

/-! ## Targets -/

theorem isTarget_cons_iff :
    IsTarget (c :: cs) ↔ c ≠ ':' ∧ c ≠ '\n' ∧ (c = '\\' → cs ≠ []) ∧ IsTarget cs := by
  constructor
  · rintro ⟨hcolon, hnewline, hlast⟩
    simp only [List.mem_cons, not_or] at hcolon hnewline
    refine ⟨Ne.symm hcolon.1, Ne.symm hnewline.1, ?_, hcolon.2, hnewline.2, ?_⟩
    · rintro rfl rfl
      exact hlast rfl
    · exact fun h => hlast (by simp [List.getLast?_cons, h])
  · rintro ⟨hcolon, hnewline, hlast, h⟩
    refine ⟨by simp [Ne.symm hcolon, h.colon], by simp [Ne.symm hnewline, h.newline], ?_⟩
    cases cs with
    | nil => simpa using hlast
    | cons d cs => simpa using h.backslash

theorem readTarget_colon (rest : List Char) : readTarget (':' :: rest) = some ([], rest) := by
  cases rest <;> rfl

theorem readTarget_newline (rest : List Char) : readTarget ('\n' :: rest) = none := by
  cases rest <;> rfl

theorem readTarget_escape (h : c = ' ' ∨ c = ':') (rest : List Char) :
    readTarget ('\\' :: c :: rest) = (readTarget rest).map fun (name, rest) => (c :: name, rest) := by
  rw [readTarget, if_neg (by decide), if_neg (by decide), if_pos ⟨rfl, h⟩]

theorem readTarget_cons (hcolon : c ≠ ':') (hnewline : c ≠ '\n')
    (h : c = '\\' → cs.head? ≠ some ' ' ∧ cs.head? ≠ some ':') :
    readTarget (c :: cs) = (readTarget cs).map fun (name, rest) => (c :: name, rest) := by
  cases cs with
  | nil => simp [readTarget, hcolon]
  | cons d cs =>
      have hplain : ¬ (c = '\\' ∧ (d = ' ' ∨ d = ':')) := by
        rintro ⟨hc, hd⟩
        have := h hc
        simp_all
      rw [readTarget, if_neg hcolon, if_neg hnewline, if_neg hplain]

theorem map_cons_eq_some_iff {x y : Char} {o : Option (List Char × List Char)} :
    (o.map fun (name, rest) => (x :: name, rest)) = some (y :: cs, rest) ↔
      x = y ∧ o = some (cs, rest) := by
  cases o <;> simp [Prod.ext_iff, and_assoc]

/-- The target is read back if nothing in it but spaces has a meaning, and only then. -/
theorem readTarget_escapeList {rest' : List Char} :
    readTarget (escapeList cs ++ ':' :: rest) = some (cs, rest') ↔ IsTarget cs ∧ rest' = rest := by
  induction cs with
  | nil =>
      have hnil : IsTarget [] := ⟨by simp, by simp, by simp⟩
      simp [readTarget_colon, hnil, eq_comm]
  | cons c cs ih =>
      rw [isTarget_cons_iff, escapeList, List.flatMap_cons, List.append_assoc, ← escapeList]
      by_cases hspace : c = ' '
      · subst hspace
        rw [escapeChar_space, List.cons_append, List.singleton_append, readTarget_escape (.inl rfl),
          map_cons_eq_some_iff, ih]
        simp
      rw [escapeChar_of_ne hspace, List.singleton_append]
      by_cases hcolon : c = ':'
      · simp [hcolon, readTarget_colon]
      by_cases hnewline : c = '\n'
      · simp [hnewline, readTarget_newline]
      by_cases hescape : c = '\\' ∧ (escapeList cs ++ ':' :: rest).head? = some ':'
      · -- The backslash is lost, so what is read starts with a colon instead.
        obtain ⟨rfl, hhead⟩ := hescape
        obtain ⟨after, hafter⟩ := List.head?_eq_some_iff.mp hhead
        have hcs : cs = [] ∨ ':' ∈ cs := by
          have hstart := (head?_escapeList_append hhead (by decide)).2
          cases cs <;> simp_all
        rw [hafter, readTarget_escape (.inr rfl), map_cons_eq_some_iff]
        refine iff_of_false (fun h => absurd h.1 (by decide)) fun h => ?_
        rcases hcs with rfl | hmem
        · exact h.1.2.2.1 rfl rfl
        · exact h.1.2.2.2.colon hmem
      · have hplain : c = '\\' → (escapeList cs ++ ':' :: rest).head? ≠ some ' ' ∧
            (escapeList cs ++ ':' :: rest).head? ≠ some ':' := by
          refine fun hc => ⟨fun hhead => ?_, fun hhead => hescape ⟨hc, hhead⟩⟩
          have hstart := head?_escapeList_append hhead (by decide)
          simp_all
        have hne : c = '\\' → cs ≠ [] := by
          rintro hc rfl
          exact (hplain hc).2 rfl
        rw [readTarget_cons hcolon hnewline hplain, map_cons_eq_some_iff, ih]
        refine ⟨fun ⟨_, h, hrest⟩ => ⟨⟨hcolon, hnewline, hne, h⟩, hrest⟩, fun ⟨h, hrest⟩ => ?_⟩
        exact ⟨rfl, h.2.2.2, hrest⟩

/-! ## Prerequisites -/

theorem readPieces_blank (h : c = ' ' ∨ c = '\t') (cs : List Char) :
    readPieces (c :: cs) = (readPieces cs).map ([] :: ·) := by
  have hnewline : c ≠ '\n' := by rcases h with rfl | rfl <;> decide
  have hend : endsPrerequisite c = true := by rcases h with rfl | rfl <;> decide
  cases cs with
  | nil => simp [readPieces, hnewline]
  | cons d cs => rw [readPieces, if_neg hnewline, if_pos hend]

theorem readPieces_escape (h : endsPrerequisite c = true) (cs : List Char) :
    readPieces ('\\' :: c :: cs) = (readPieces cs).map (prependChar c) := by
  rw [readPieces, if_neg (by decide), if_neg (by decide), if_pos ⟨rfl, h⟩]

theorem readPieces_cons (hend : endsPrerequisite c = false)
    (h : c = '\\' → ∀ d, cs.head? = some d → endsPrerequisite d = false) :
    readPieces (c :: cs) = (readPieces cs).map (prependChar c) := by
  have hnewline : c ≠ '\n' := by
    rintro rfl
    cases hend
  cases cs with
  | nil => simp [readPieces, hnewline]
  | cons d cs =>
      have hplain : ¬ (c = '\\' ∧ endsPrerequisite d) := by
        rintro ⟨hc, hd⟩
        cases hd.symm.trans (h hc d rfl)
      rw [readPieces, if_neg hnewline, if_neg (by simp [hend]), if_neg hplain]

@[simp] theorem flatten_prependChar (c : Char) (pieces : List (List Char)) :
    (prependChar c pieces).flatten = c :: pieces.flatten := by
  cases pieces <;> rfl

/-- A backslash in front of a separator is no part of a piece, and each other one is. -/
theorem count_of_readPieces {pieces : List (List Char)} (h : readPieces cs = some pieces) :
    cs.count '\\' = pieces.flatten.countP fun c => c == '\\' || endsPrerequisite c := by
  fun_induction readPieces cs generalizing pieces with
  | case1 | case3 | case4 => cases h
  | case2 => cases h; rfl
  | case5 c d cs hnewline hend ih =>
      obtain ⟨pieces, hread, rfl⟩ := Option.map_eq_some_iff.mp h
      have hc : c ≠ '\\' := by
        rintro rfl
        cases hend
      rw [List.count_cons_of_ne hc, ih hread]
      rfl
  | case6 c d cs hnewline hend hescape ih =>
      obtain ⟨pieces, hread, rfl⟩ := Option.map_eq_some_iff.mp h
      obtain ⟨rfl, hd⟩ := hescape
      have hne : d ≠ '\\' := by
        rintro rfl
        cases hd
      rw [List.count_cons_self, List.count_cons_of_ne hne, ih hread, flatten_prependChar,
        List.countP_cons_of_pos (by simp [hd])]
  | case7 c d cs hnewline hend hescape ih =>
      obtain ⟨pieces, hread, rfl⟩ := Option.map_eq_some_iff.mp h
      rw [List.count_cons, ih hread, flatten_prependChar, List.countP_cons]
      simp [hend]

theorem getLast?_prependChar {pieces : List (List Char)}
    (hpieces : ∀ piece ∈ pieces, piece.getLast? ≠ some '\\')
    (hfirst : c = '\\' → ∃ x piece, pieces.head? = some (x :: piece)) :
    ∀ piece ∈ prependChar c pieces, piece.getLast? ≠ some '\\' := by
  cases pieces with
  | nil =>
      refine List.forall_mem_singleton.mpr fun hlast => ?_
      obtain ⟨x, piece, hhead⟩ := hfirst (Option.some.inj hlast)
      cases hhead
  | cons first pieces =>
      obtain ⟨hlast, hpieces⟩ := List.forall_mem_cons.mp hpieces
      refine List.forall_mem_cons.mpr ⟨?_, hpieces⟩
      cases first with
      | nil =>
          intro hc
          obtain ⟨x, piece, hhead⟩ := hfirst (Option.some.inj hc)
          cases hhead
      | cons x first => exact hlast

/-- A text that does not start with a separator starts with a piece that is not empty. -/
theorem head?_of_readPieces {pieces : List (List Char)} (h : readPieces (c :: cs) = some pieces)
    (hc : endsPrerequisite c = false) : ∃ x piece, pieces.head? = some (x :: piece) := by
  have hprepend : ∀ x (pieces : List (List Char)), ∃ piece,
      (prependChar x pieces).head? = some (x :: piece) := by
    intro x pieces
    cases pieces <;> exact ⟨_, rfl⟩
  cases cs with
  | nil =>
      rw [readPieces] at h
      split_ifs at h with hnewline
      subst hnewline
      cases hc
  | cons d cs =>
      rw [readPieces] at h
      split_ifs at h with hnewline hend hescape
      · cases hc.symm.trans hend
      · obtain ⟨pieces, -, rfl⟩ := Option.map_eq_some_iff.mp h
        exact ⟨_, hprepend d pieces⟩
      · obtain ⟨pieces, -, rfl⟩ := Option.map_eq_some_iff.mp h
        exact ⟨_, hprepend c pieces⟩

/-- A piece is left only in front of a separator, so there is no backslash at its end. -/
theorem getLast?_of_readPieces {pieces : List (List Char)} (h : readPieces cs = some pieces) :
    ∀ piece ∈ pieces, piece.getLast? ≠ some '\\' := by
  fun_induction readPieces cs generalizing pieces with
  | case1 | case3 | case4 => cases h
  | case2 => cases h; simp
  | case5 c d cs hnewline hend ih =>
      obtain ⟨pieces, hread, rfl⟩ := Option.map_eq_some_iff.mp h
      exact List.forall_mem_cons.mpr ⟨by simp, ih hread⟩
  | case6 c d cs hnewline hend hescape ih =>
      obtain ⟨pieces, hread, rfl⟩ := Option.map_eq_some_iff.mp h
      refine getLast?_prependChar (ih hread) ?_
      rintro rfl
      cases hescape.2
  | case7 c d cs hnewline hend hescape ih =>
      obtain ⟨pieces, hread, rfl⟩ := Option.map_eq_some_iff.mp h
      refine getLast?_prependChar (ih hread) fun hc => head?_of_readPieces hread ?_
      exact Bool.eq_false_iff.mpr fun hd => hescape ⟨hc, hd⟩

/-- What follows the target in a rule. -/
def writtenNames (names : List (List Char)) : List Char :=
  (names.flatMap fun name => ' ' :: escapeList name) ++ ['\n']

theorem count_escapeList (cs : List Char) :
    (escapeList cs).count '\\' = cs.countP fun c => c == '\\' || c == ' ' := by
  induction cs with
  | nil => rfl
  | cons c cs ih =>
      rw [escapeList, List.flatMap_cons, List.count_append, ← escapeList, ih, List.countP_cons,
        Nat.add_comm]
      by_cases hspace : c = ' '
      · subst hspace
        rfl
      · simp [escapeChar_of_ne hspace, hspace, List.count_singleton]

theorem count_writtenNames (names : List (List Char)) :
    (writtenNames names).count '\\' = names.flatten.countP fun c => c == '\\' || c == ' ' := by
  induction names with
  | nil => rfl
  | cons name names ih =>
      rw [List.flatten_cons, List.countP_append, ← ih, ← count_escapeList]
      simp [writtenNames]

theorem countP_endsPrerequisite (cs : List Char) :
    (cs.countP fun c => c == '\\' || endsPrerequisite c) =
      (cs.countP fun c => c == '\\' || c == ' ') + cs.count '\t' + cs.count '\n' := by
  induction cs with
  | nil => rfl
  | cons c cs ih =>
      have hc : (if c == '\\' || endsPrerequisite c then 1 else 0) =
          (if c == '\\' || c == ' ' then 1 else 0) + (if c == '\t' then 1 else 0) +
            if c == '\n' then 1 else 0 := by
        by_cases htab : c = '\t'
        · subst htab
          rfl
        by_cases hnewline : c = '\n'
        · subst hnewline
          rfl
        simp [endsPrerequisite, htab, hnewline]
      simp only [List.countP_cons, List.count_cons, ih, hc]
      omega

theorem readPieces_escapeList {x : Char} (htab : '\t' ∉ name) (hnewline : '\n' ∉ name)
    (hlast : name.getLast? ≠ some '\\') (cs : List Char) :
    readPieces (escapeList name ++ x :: cs) =
      (readPieces (x :: cs)).map fun pieces => name.foldr prependChar pieces := by
  have hend : ∀ d ∈ name, d ≠ ' ' → endsPrerequisite d = false := by
    intro d hd hspace
    have hne_tab : d ≠ '\t' := fun heq => htab (heq ▸ hd)
    have hne_newline : d ≠ '\n' := fun heq => hnewline (heq ▸ hd)
    simp [endsPrerequisite, hspace, hne_tab, hne_newline]
  induction name with
  | nil => simp
  | cons c name ih =>
      obtain ⟨hc, hname⟩ := List.forall_mem_cons.mp hend
      have hlast' : name.getLast? ≠ some '\\' := by
        cases name with
        | nil => simp
        | cons d name => exact hlast
      have hread := ih (fun h => htab (List.mem_cons_of_mem _ h))
        (fun h => hnewline (List.mem_cons_of_mem _ h)) hlast' hname
      rw [escapeList, List.flatMap_cons, List.append_assoc, ← escapeList]
      by_cases hspace : c = ' '
      · subst hspace
        rw [escapeChar_space, List.cons_append, List.singleton_append, readPieces_escape rfl, hread,
          Option.map_map]
        rfl
      · have hplain : c = '\\' → ∀ d, (escapeList name ++ x :: cs).head? = some d →
            endsPrerequisite d = false := by
          intro hbackslash d hhead
          cases name with
          | nil => exact absurd (congrArg some hbackslash) hlast
          | cons e name =>
              by_cases he : e = ' '
              · subst he
                cases hhead
                rfl
              · rw [escapeList, List.flatMap_cons, escapeChar_of_ne he] at hhead
                cases hhead
                exact hname d List.mem_cons_self he
        rw [escapeChar_of_ne hspace, List.singleton_append, readPieces_cons (hc hspace) hplain, hread,
          Option.map_map]
        rfl

theorem foldr_prependChar (name : List Char) (pieces : List (List Char)) :
    name.foldr prependChar ([] :: pieces) = name :: pieces := by
  induction name with
  | nil => rfl
  | cons c name ih => rw [List.foldr_cons, ih, prependChar]

theorem writtenNames_cons (names : List (List Char)) :
    ∃ x cs, writtenNames names = x :: cs := by
  cases names <;> exact ⟨_, _, rfl⟩

theorem readPieces_writtenNames {names : List (List Char)} (h : ∀ name ∈ names, IsPrerequisite name) :
    readPieces (writtenNames names) = some ([] :: names) := by
  induction names with
  | nil => rfl
  | cons name names ih =>
      obtain ⟨hname, hnames⟩ := List.forall_mem_cons.mp h
      obtain ⟨x, cs, hwritten⟩ := writtenNames_cons names
      have hsplit : writtenNames (name :: names) = ' ' :: (escapeList name ++ x :: cs) := by
        rw [← hwritten]
        simp [writtenNames]
      rw [hsplit, readPieces_blank (.inl rfl), readPieces_escapeList hname.tab hname.newline
        hname.backslash, ← hwritten, ih hnames, Option.map_some, foldr_prependChar]
      rfl

/-- The prerequisites are read back if nothing in them but spaces has a meaning, and only then. -/
theorem readPrerequisites_writtenNames {names : List (List Char)} :
    readPrerequisites (writtenNames names) = some names ↔ ∀ name ∈ names, IsPrerequisite name := by
  constructor
  · intro h name hmem
    obtain ⟨pieces, hread, hpieces⟩ := Option.map_eq_some_iff.mp h
    -- Backslashes are counted: one is lost for each separator in a name.
    have hflatten : names.flatten = pieces.flatten := by
      rw [← hpieces]
      exact List.flatten_filter_ne_nil
    have hcount := count_of_readPieces hread
    rw [count_writtenNames, ← hflatten, countP_endsPrerequisite] at hcount
    have htab : '\t' ∉ names.flatten := List.count_eq_zero.mp (by omega)
    have hnewline : '\n' ∉ names.flatten := List.count_eq_zero.mp (by omega)
    have hpiece : name ∈ pieces ∧ name ≠ [] := by
      simpa [← hpieces] using hmem
    exact ⟨hpiece.2, fun hc => htab (List.mem_flatten_of_mem hmem hc),
      fun hc => hnewline (List.mem_flatten_of_mem hmem hc), getLast?_of_readPieces hread _ hpiece.1⟩
  · intro h
    have hfilter : names.filter (· ≠ []) = names :=
      List.filter_eq_self.mpr fun name hname => decide_eq_true (h name hname).ne_nil
    rw [readPrerequisites, readPieces_writtenNames h, Option.map_some, List.filter_cons_of_neg,
      hfilter]
    simp

/-! ## Rules -/

theorem toList_rule (target : Path) (dependencies : List Path) :
    (rule target dependencies).toList = escapeList target.text.toList ++
      ':' :: writtenNames (dependencies.map (·.text.toList)) := by
  simp [rule, escape, writtenNames, String.toList_join, List.flatMap_map]

/-- Nothing in the paths of a rule has a meaning in it, but for spaces. -/
structure IsPlain (target : Path) (dependencies : List Path) : Prop where
  target : IsTarget target.text.toList
  dependencies : ∀ d ∈ dependencies, IsPrerequisite d.text.toList

theorem ofList_eq_iff {name : List Char} {p : Path} :
    (⟨String.ofList name⟩ : Path) = p ↔ name = p.text.toList := by
  cases p with
  | mk text => rw [Path.mk.injEq, ← String.toList_inj, String.toList_ofList]

theorem map_ofList_eq_iff {names : List (List Char)} {paths : List Path} :
    (names.map fun name => (⟨String.ofList name⟩ : Path)) = paths ↔
      names = paths.map (·.text.toList) := by
  constructor
  · rintro rfl
    simp [Function.comp_def]
  · rintro rfl
    simp [Function.comp_def]

theorem readRule_eq_some_iff {text : String} {target : Path} {dependencies : List Path} :
    readRule text = some (target, dependencies) ↔
      ∃ rest, readTarget text.toList = some (target.text.toList, rest) ∧
        readPrerequisites rest = some (dependencies.map (·.text.toList)) := by
  simp only [readRule, Option.bind_eq_bind, Option.bind_eq_some_iff, Prod.exists, Option.pure_def,
    Option.some.injEq, Prod.mk.injEq, ofList_eq_iff, map_ofList_eq_iff]
  constructor
  · rintro ⟨name, rest, htarget, names, hnames, rfl, rfl⟩
    exact ⟨rest, htarget, hnames⟩
  · rintro ⟨rest, htarget, hnames⟩
    exact ⟨_, rest, htarget, _, hnames, rfl, rfl⟩

theorem readRule_rule {target : Path} {dependencies : List Path} :
    readRule (rule target dependencies) = some (target, dependencies) ↔
      IsPlain target dependencies := by
  simp only [readRule_eq_some_iff, toList_rule, readTarget_escapeList]
  constructor
  · rintro ⟨rest, ⟨htarget, rfl⟩, hnames⟩
    exact ⟨htarget, List.forall_mem_map.mp (readPrerequisites_writtenNames.mp hnames)⟩
  · rintro ⟨htarget, hnames⟩
    exact ⟨_, ⟨htarget, rfl⟩, readPrerequisites_writtenNames.mpr (List.forall_mem_map.mpr hnames)⟩

/-- A rule gives back its target and its prerequisites if and only if nothing but spaces has a meaning
in them. Rules of this kind differ where their paths do. -/
theorem rule_read_iff (target target' : Path) (dependencies dependencies' : List Path) :
    (readRule (rule target dependencies) = some (target, dependencies) ↔
      IsPlain target dependencies) ∧
    (IsPlain target dependencies → IsPlain target' dependencies' →
      rule target dependencies = rule target' dependencies' →
      target = target' ∧ dependencies = dependencies') := by
  refine ⟨readRule_rule, fun h h' heq => ?_⟩
  have hread := readRule_rule.mpr h
  rw [heq, readRule_rule.mpr h', Option.some.injEq, Prod.mk.injEq] at hread
  exact ⟨hread.1.symm, hread.2.symm⟩

/-- A space inside a path and one between two paths. -/
theorem rule_read_iff_spaces :
    IsPlain ⟨"a b"⟩ [⟨"c d"⟩] ∧ IsPlain ⟨"a b"⟩ [⟨"c"⟩, ⟨"d"⟩] ∧
    readRule (rule ⟨"a b"⟩ [⟨"c d"⟩]) = some (⟨"a b"⟩, [⟨"c d"⟩]) ∧
    rule ⟨"a b"⟩ [⟨"c d"⟩] ≠ rule ⟨"a b"⟩ [⟨"c"⟩, ⟨"d"⟩] := by
  have htarget : IsTarget "a b".toList := ⟨by decide, by decide, by decide⟩
  have hinside : IsPrerequisite "c d".toList := ⟨by decide, by decide, by decide, by decide⟩
  have hbefore : IsPrerequisite "c".toList := ⟨by decide, by decide, by decide, by decide⟩
  have hafter : IsPrerequisite "d".toList := ⟨by decide, by decide, by decide, by decide⟩
  have hone : IsPlain ⟨"a b"⟩ [⟨"c d"⟩] := ⟨htarget, List.forall_mem_singleton.mpr hinside⟩
  have htwo : IsPlain ⟨"a b"⟩ [⟨"c"⟩, ⟨"d"⟩] :=
    ⟨htarget, List.forall_mem_cons.mpr ⟨hbefore, List.forall_mem_singleton.mpr hafter⟩⟩
  obtain ⟨hread, hdiffer⟩ := rule_read_iff ⟨"a b"⟩ ⟨"a b"⟩ [⟨"c d"⟩] [⟨"c"⟩, ⟨"d"⟩]
  exact ⟨hone, htwo, hread.mpr hone, fun heq => absurd (hdiffer hone htwo heq).2 (by decide)⟩

/-- A colon in a target is not escaped, so the target ends at it. Neither is a backslash at the end of
a path, which then takes its meaning from the blank that separates two paths. -/
theorem rule_misread_colon :
    rule ⟨"C:/out.inc"⟩ [⟨"defs.toml"⟩] = "C:/out.inc: defs.toml\n" ∧
    readRule "C:/out.inc: defs.toml\n" = some (⟨"C"⟩, [⟨"/out.inc:"⟩, ⟨"defs.toml"⟩]) ∧
    rule ⟨"t"⟩ [⟨"a\\"⟩, ⟨"b"⟩] = rule ⟨"t"⟩ [⟨"a b"⟩] := by
  exact ⟨by decide, by decide, by decide⟩

end AttributeTables.Depfile
