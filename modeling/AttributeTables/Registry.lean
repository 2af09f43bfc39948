import AttributeTables.Catalogue
import AttributeTables.Log
import AttributeTables.Text.Blank
import AttributeTables.Text.Identifier
import AttributeTables.Text.Quoted

/-!
# The registry of attributes

A registry grows by one attribute or rule at a time. What would make the generated text unusable
is refused, and then the registry stays as it was.
-/

namespace AttributeTables

/-- The attributes of each category in the order of their insertion, the names in use, and the
rules. -/
structure Registry where
  listed : Category → List Definition := fun _ => []
  /-- The names of all attributes, each once. -/
  names : List String := []
  compatRules : List CompatRule := []
  mergeRules : List MergeRule := []

/-- The two kinds of rules. -/
inductive RuleKind where
  | compat
  | merge
  deriving DecidableEq

/-- The name of the kind in messages. -/
def RuleKind.name : RuleKind → String
  | .compat => "compat"
  | .merge => "merge"

/-- Why a registry refuses an attribute or a rule. -/
inductive Refusal where
  /-- The name is no identifier. -/
  | invalidName (name : String)
  /-- The display string cannot be an argument of a callback. -/
  | invalidDisplay (name display : String)
  /-- Another attribute has the name. -/
  | duplicateName (name : String)
  /-- The rule names no function. -/
  | emptyFunction (kind : RuleKind)
  deriving DecidableEq

/-- The text for the user. -/
def Refusal.message : Refusal → String
  | .invalidName name => "Attribute name `" ++ name ++ "` is not a valid C identifier."
  | .invalidDisplay name display =>
    "Attribute `" ++ name ++ "` has display string " ++ Text.quoted display ++
      " which cannot be used as a macro argument."
  | .duplicateName name =>
    "Attribute `" ++ name ++ "` is defined more than once. " ++
      "Attribute names must be unique across all categories."
  | .emptyFunction kind => "A " ++ kind.name ++ " rule has an empty function name."

/-- The characters form one argument of a callback: there is at least one, and none is blank or
has a meaning in an argument list. -/
def isArgumentList (cs : List Char) : Bool :=
  !cs.isEmpty && cs.all fun c => !Text.isBlank c && c != ',' && c != '(' && c != ')'

/-- The text can be one argument of a callback. -/
def isArgument (s : String) : Bool := isArgumentList s.toList

/-- A step on a registry that may be refused. There is a registry afterwards in either case. -/
abbrev Registration := ExceptT Refusal (StateM Registry)

/-- The registry after a step that is not refused. -/
def Registration.result (step : Registration Unit) (r : Registry) : Except Refusal Registry :=
  match step.run.run r with
  | (.ok (), after) => .ok after
  | (.error refusal, _) => .error refusal

namespace Registry

/-- An attribute of the registry has the name. -/
def hasName (r : Registry) (name : String) : Bool := r.names.contains name

/-- Takes a name into use. -/
def claim (r : Registry) (name : String) : Registry := { r with names := r.names.insert name }

/-- Lists an attribute after the others of its category. -/
def enlist (r : Registry) (d : Definition) : Registry :=
  { r with listed := fun c => if c == d.category then r.listed c ++ [d] else r.listed c }

/-- Adds an attribute after the others of its category. -/
def insert (d : Definition) : Registration Unit := do
  if !Text.isIdentifier d.name then
    throw (.invalidName d.name)
  if !isArgument d.display then
    throw (.invalidDisplay d.name d.display)
  if (← get).hasName d.name then
    throw (.duplicateName d.name)
  modify (·.claim d.name)
  modify (·.enlist d)

/-- Adds a rule after the others of its kind. An empty argument is the same as none. -/
def addCompatRule (rule : CompatRule) : Registration Unit := do
  if rule.function == "" then
    throw (.emptyFunction .compat)
  let argument := if rule.argument == some "" then none else rule.argument
  modify fun r => { r with compatRules := r.compatRules ++ [{ rule with argument }] }

/-- Adds a rule after the others of its kind. -/
def addMergeRule (rule : MergeRule) : Registration Unit := do
  if rule.function == "" then
    throw (.emptyFunction .merge)
  modify fun r => { r with mergeRules := r.mergeRules ++ [rule] }

/-- The registry as a catalogue. -/
def catalogue (r : Registry) : Catalogue := ⟨r.listed, r.compatRules, r.mergeRules⟩

/-- The number of attributes in all categories. -/
def size (r : Registry) : Nat := r.names.length

/-- The attribute with the given name. -/
def get? (r : Registry) (name : String) : Option Definition :=
  if r.hasName name then (Category.all.flatMap r.listed).find? (·.name == name) else none

end Registry

/-! ## Calls -/

/-- What can be asked of a registry that grows. -/
inductive Call where
  | insert (d : Definition)
  | compatRule (rule : CompatRule)
  | mergeRule (rule : MergeRule)
  deriving DecidableEq

/-- The step that a call asks for. -/
def Call.step : Call → Registration Unit
  | .insert d => Registry.insert d
  | .compatRule rule => Registry.addCompatRule rule
  | .mergeRule rule => Registry.addMergeRule rule

/-- Takes the calls one after the other, also after a refusal. There is an answer for each call. -/
def Registry.perform (r : Registry) : List Call → List (Except Refusal Unit) × Registry
  | [] => ([], r)
  | call :: calls =>
    let (answer, next) := call.step.run.run r
    let (answers, last) := next.perform calls
    (answer :: answers, last)

/-- The registry that a sequence of calls builds up from nothing. -/
def Registry.ofCalls (calls : List Call) : Registry := (Registry.perform {} calls).2

/-! ## Records -/

/-- What is reported when a registry accepts the attribute. Tags on an attribute without a code
have no effect. -/
def Definition.records (d : Definition) : List Log.Record :=
  (if !d.category.bearsCode && !d.properties.isEmpty then
    [⟨.warn, "hyattr::database", "Attribute `" ++ d.name ++ "` of category '" ++ d.category.name ++
      "' declares properties; they are ignored"⟩]
  else []) ++
  [⟨.debug, "hyattr::database",
    "Registered attribute `" ++ d.name ++ "` (" ++ d.category.name ++ ")"⟩]

end AttributeTables
