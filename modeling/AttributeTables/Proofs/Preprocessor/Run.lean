import AttributeTables.Association
import AttributeTables.Proofs.Preprocessor.Invocation

/-!
# Running a preprocessor

A preprocessor goes through a text line by line. It knows the macros that are defined, and the
conditionals that are open. Directives in a skipped part only open and close conditionals; of the
other lines those in a part that is not skipped are kept, with what they expand to.
-/

namespace AttributeTables.Preprocessor

variable {α : Type}

/-! ## Lines -/

inductive Directive where
  | ifDefined (name : String)
  | ifUndefined (name : String)
  | endif
  | define (name : String) (parameters : List String) (body : String)
  | undefine (name : String)
  deriving DecidableEq

/-- The identifier at the front, after any blanks, and what follows it. -/
def word? (cs : List Char) : Option (String × List Char) :=
  let cs := cs.dropWhile Char.isWhitespace
  let name := cs.takeWhile Text.isIdentifierPart
  if Text.isIdentifierList name then
    some (String.ofList name, cs.dropWhile Text.isIdentifierPart)
  else none

/-- A definition from what follows the name: parameters in parentheses right after it, and the
replacement. -/
def definition? (name : String) (cs : List Char) : Option Directive := do
  let cs ← ['('].isPrefixOf? cs
  let body ← [')'].isPrefixOf? (cs.dropWhile (· != ')'))
  return .define name
    ((Text.pieces ',' (cs.takeWhile (· != ')'))).map fun p => String.ofList (trim p))
    (String.ofList (trim body))

def Directive.read? (cs : List Char) : Option Directive := do
  let (keyword, rest) ← word? cs
  if keyword = "endif" then
    if trim rest = [] then return .endif else none
  else
    let (name, rest) ← word? rest
    if keyword = "define" then definition? name rest
    else if trim rest ≠ [] then none
    else if keyword = "ifdef" then return .ifDefined name
    else if keyword = "ifndef" then return .ifUndefined name
    else if keyword = "undef" then return .undefine name
    else none

inductive Line where
  | blank
  | text
  | directive (d : Directive)
  /-- A directive that cannot be read. -/
  | unknown
  deriving DecidableEq

def Line.ofString (line : String) : Line :=
  match line.toList.dropWhile Char.isWhitespace with
  | [] => .blank
  | c :: cs =>
    if c = '#' then
      match Directive.read? cs with
      | some d => .directive d
      | none => .unknown
    else .text

/-- What starts with a letter, a digit or an underscore is text. -/
theorem Line.ofString_eq_text_of_isPart {line : String} {first : Char} {rest : List Char}
    (hfirst : Text.isIdentifierPart first = true) (hline : line.toList = first :: rest) :
    Line.ofString line = .text := by
  have hblank := isWhitespace_of_isPart hfirst
  have hsign : first ≠ '#' := by
    rintro rfl
    cases hfirst
  rw [Line.ofString, hline, List.dropWhile_cons_of_neg (by simp [hblank])]
  exact if_neg hsign

theorem Line.ofString_eq_text {line name : String} {rest : List Char}
    (hname : Text.IsIdentifier name) (hline : line.toList = name.toList ++ rest) :
    Line.ofString line = .text := by
  obtain ⟨first, others, hs, -⟩ := id hname
  have hfirst : Text.isIdentifierPart first = true := hname.isPart (by simp [hs])
  rw [hs, List.cons_append] at hline
  exact Line.ofString_eq_text_of_isPart hfirst hline

/-! ## Macros -/

/-- What a macro stands for. -/
inductive Meaning (α : Type) where
  /-- Something that the consumer does with the arguments. -/
  | action (a : α)
  | replacement (parameters : List String) (body : String)

abbrev Macros (α : Type) := List (String × Meaning α)

def Macros.erase (m : Macros α) (name : String) : Macros α := m.filter (·.1 != name)

theorem Macros.lookup_erase (m : Macros α) (name other : String) :
    (m.erase name).lookup other = if other != name then m.lookup other else none :=
  lookup_filter_key (· != name) m other

theorem Macros.erase_filter (m : Macros α) (p : String × Meaning α → Bool) (name : String) :
    Macros.erase (m.filter p) name = (m.erase name).filter p := by
  simp only [erase, List.filter_filter, Bool.and_comm]

theorem Macros.length_erase_lt {m : Macros α} {name : String} {meaning : Meaning α}
    (h : m.lookup name = some meaning) : (m.erase name).length < m.length := by
  obtain ⟨before, after, rfl, -⟩ := List.lookup_eq_some_iff.mp h
  refine List.length_filter_lt_length_iff_exists.mpr ⟨(name, meaning), by simp, by simp⟩

/-- The body with each parameter replaced by its value, all of them at once. -/
def substitute (values : List (String × String)) (body : String) : String :=
  let words := body.toList.splitBy fun a b => Text.isIdentifierPart a && Text.isIdentifierPart b
  String.ofList <| words.flatMap fun word =>
    match values.lookup (String.ofList word) with
    | some value => value.toList
    | none => word

inductive Expansion (α : Type) where
  | nothing
  | text (s : String)
  /-- An action of the consumer is called with arguments. -/
  | callback (a : α) (arguments : List String)

/-- Expands a line. A replacement is scanned again, without the macro that it comes from. -/
def expand (m : Macros α) (line : String) : Expansion α :=
  if Line.ofString line = .blank then .nothing
  else
    match Invocation.ofLine? line with
    | none => .text line
    | some call =>
      match _h : m.lookup call.name with
      | none => .text line
      | some (.action a) => .callback a call.arguments
      | some (.replacement parameters body) =>
        if parameters.length = call.arguments.length then
          expand (m.erase call.name) (substitute (parameters.zip call.arguments) body)
        else .text line
termination_by m.length
decreasing_by exact Macros.length_erase_lt _h

theorem expand_blank {m : Macros α} {line : String} (h : Line.ofString line = .blank) :
    expand m line = .nothing := by
  rw [expand, if_pos h]

section Invoked

variable {m : Macros α} {line name : String} {arguments : List String}
  (hline : Line.ofString line ≠ .blank)
  (hcall : Invocation.ofLine? line = some ⟨name, arguments⟩)
include hline hcall

theorem expand_action {a : α} (h : m.lookup name = some (.action a)) :
    expand m line = .callback a arguments := by
  rw [expand, if_neg hline, hcall]
  dsimp only
  split <;> simp_all

theorem expand_replacement {parameters : List String} {body : String}
    (h : m.lookup name = some (.replacement parameters body))
    (hlength : parameters.length = arguments.length) :
    expand m line = expand (m.erase name) (substitute (parameters.zip arguments) body) := by
  rw [expand, if_neg hline, hcall]
  dsimp only
  split <;> simp_all

end Invoked

/-! ## Steps -/

/-- A preprocessor on its way through a text. -/
structure State (α : Type) where
  macros : Macros α
  /-- For each open conditional whether it held, the innermost one first. -/
  conditions : List Bool := []
  /-- The lines of text that were not skipped, with what came of them. -/
  kept : List (String × Expansion α) := []

namespace State

/-- Before the first line only the consumer has defined macros. -/
def start (given : List (String × α)) : State α :=
  { macros := given.map fun p => (p.1, .action p.2) }

def isDefined (s : State α) (name : String) : Bool := (s.macros.lookup name).isSome

def isActive (s : State α) : Bool := s.conditions.all id

def push (s : State α) (holds : Bool) : State α := { s with conditions := holds :: s.conditions }

def define (s : State α) (name : String) (meaning : Meaning α) : State α :=
  { s with macros := (name, meaning) :: s.macros }

def undefine (s : State α) (name : String) : State α := { s with macros := s.macros.erase name }

def keep (s : State α) (lines : List String) : State α :=
  { s with kept := s.kept ++ lines.map fun line => (line, expand s.macros line) }

@[simp] theorem isActive_push (s : State α) (holds : Bool) :
    (s.push holds).isActive = (holds && s.isActive) := rfl

@[simp] theorem isDefined_push (s : State α) (holds : Bool) (name : String) :
    (s.push holds).isDefined name = s.isDefined name := rfl

@[simp] theorem isActive_keep (s : State α) (lines : List String) :
    (s.keep lines).isActive = s.isActive := rfl

theorem define_push (s : State α) (holds : Bool) (name : String) (meaning : Meaning α) :
    (s.push holds).define name meaning = (s.define name meaning).push holds := rfl

theorem keep_keep (s : State α) (xs ys : List String) :
    (s.keep xs).keep ys = s.keep (xs ++ ys) := by
  simp [keep]

/-- Follows a directive. A macro must not be defined twice, and only an open conditional can be
closed. -/
def follow (s : State α) : Directive → Option (State α)
  | .ifDefined name => some (s.push (s.isDefined name))
  | .ifUndefined name => some (s.push (!s.isDefined name))
  | .endif =>
    match s.conditions with
    | [] => none
    | _ :: outer => some { s with conditions := outer }
  | .define name parameters body =>
    if !s.isActive then some s
    else if s.isDefined name then none
    else some (s.define name (.replacement parameters body))
  | .undefine name => some (if s.isActive then s.undefine name else s)

@[simp] theorem follow_endif_push (s : State α) (holds : Bool) :
    (s.push holds).follow .endif = some s := rfl

def step (s : State α) (line : String) : Option (State α) :=
  match Line.ofString line with
  | .blank => some s
  | .text => some (if s.isActive then s.keep [line] else s)
  | .directive d => s.follow d
  | .unknown => if s.isActive then none else some s

def run (s : State α) (lines : List String) : Option (State α) := lines.foldlM step s

@[simp] theorem run_nil (s : State α) : s.run [] = some s := rfl

theorem run_cons (s : State α) (line : String) (lines : List String) :
    s.run (line :: lines) = (s.step line).bind (·.run lines) := rfl

theorem run_append (s : State α) (xs ys : List String) :
    s.run (xs ++ ys) = (s.run xs).bind (·.run ys) := List.foldlM_append

/-! ## Common groups of lines -/

theorem step_blank {line : String} (h : Line.ofString line = .blank) (s : State α) :
    s.step line = some s := by
  rw [step, h]

theorem step_text {line : String} (h : Line.ofString line = .text) (s : State α) :
    s.step line = some (if s.isActive then s.keep [line] else s) := by
  rw [step, h]

theorem step_directive {line : String} {d : Directive} (h : Line.ofString line = .directive d)
    (s : State α) : s.step line = s.follow d := by
  rw [step, h]

theorem run_text {lines : List String} (h : ∀ line ∈ lines, Line.ofString line = .text)
    (s : State α) : s.run lines = some (if s.isActive then s.keep lines else s) := by
  induction lines generalizing s with
  | nil => simp [keep]
  | cons line lines ih =>
      obtain ⟨hline, hlines⟩ := List.forall_mem_cons.mp h
      rw [run_cons, step_text hline, Option.bind_some, ih hlines]
      cases hs : s.isActive with
      | false => simp [hs]
      | true => simp [hs, keep_keep]

/-- Defines a macro unless there is one. -/
def default (s : State α) (name : String) (meaning : Meaning α) : State α :=
  if s.isDefined name then s else s.define name meaning

@[simp] theorem isActive_default (s : State α) (name : String) (meaning : Meaning α) :
    (s.default name meaning).isActive = s.isActive := by
  rw [default]
  split_ifs <;> rfl

@[simp] theorem conditions_default (s : State α) (name : String) (meaning : Meaning α) :
    (s.default name meaning).conditions = s.conditions := by
  rw [default]
  split_ifs <;> rfl

@[simp] theorem kept_default (s : State α) (name : String) (meaning : Meaning α) :
    (s.default name meaning).kept = s.kept := by
  rw [default]
  split_ifs <;> rfl

@[simp] theorem erase_default (s : State α) (name : String) (meaning : Meaning α) :
    (s.default name meaning).macros.erase name = s.macros.erase name := by
  rw [default]
  split_ifs
  · rfl
  · exact List.filter_cons_of_neg (by simp)

theorem default_push (s : State α) (holds : Bool) (name : String) (meaning : Meaning α) :
    (s.push holds).default name meaning = (s.default name meaning).push holds := by
  rw [default, default, isDefined_push]
  split_ifs <;> rfl

theorem lookup_default_self (s : State α) (name : String) (meaning : Meaning α) :
    (s.default name meaning).macros.lookup name = some ((s.macros.lookup name).getD meaning) := by
  rw [default, isDefined]
  cases h : s.macros.lookup name with
  | some other => exact h
  | none => exact List.lookup_cons_self

theorem lookup_default_of_ne (s : State α) {name other : String} (meaning : Meaning α)
    (h : other ≠ name) : (s.default name meaning).macros.lookup other = s.macros.lookup other := by
  have hne : (other == name) = false := beq_eq_false_iff_ne.mpr h
  rw [default]
  split_ifs
  · rfl
  · rw [define, List.lookup_cons, hne]

/-- A definition between an inclusion guard and its end. -/
theorem run_default {guard define endif blank name body : String} {parameters : List String}
    (hguard : Line.ofString guard = .directive (.ifUndefined name))
    (hdefine : Line.ofString define = .directive (.define name parameters body))
    (hendif : Line.ofString endif = .directive .endif) (hblank : Line.ofString blank = .blank)
    (s : State α) : s.run [guard, define, endif, blank] =
      some (if s.isActive then s.default name (.replacement parameters body) else s) := by
  rw [run_cons, step_directive hguard, follow, Option.bind_some, run_cons, step_directive hdefine,
    follow, isActive_push]
  cases hs : s.isActive with
  | false => simp [run_cons, step_directive hendif, step_blank hblank]
  | true =>
      cases hd : s.isDefined name with
      | false =>
          simp [run_cons, step_directive hendif, step_blank hblank, hd, define_push, default]
      | true => simp [run_cons, step_directive hendif, step_blank hblank, hd, default]

end State

end AttributeTables.Preprocessor
