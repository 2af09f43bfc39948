import AttributeTables.Toml.Misfit

/-!
# Records in documents

A record is written as a table, whose keys name the fields, or as an array, which has the fields in
their declared order. The entries of a table are visited in the order of their keys, and the first
fault decides.
-/

namespace AttributeTables.Toml

/-- The outcome of reading a part of a document. -/
abbrev Fitting := Except Misfit

/-- The value is not of the expected kind. -/
def misplaced (tree : Tree) (expected : String) : Fitting α :=
  .error ⟨tree.span, .wrongKind tree.description expected⟩

/-! ## Simple values -/

/-- A text; `expected` is what a message asks for. -/
def readText (expected : String) : Tree → Fitting String
  | .leaf _ (.text s) => .ok s
  | tree => misplaced tree expected

/-- A text of no special use. -/
def readString : Tree → Fitting String := readText "a string"

/-- A truth value. -/
def readBoolean : Tree → Fitting Bool
  | .leaf _ (.boolean b) => .ok b
  | tree => misplaced tree "a boolean"

/-- A list whose items are all read in the same way. -/
def readList (read : Tree → Fitting α) : Tree → Fitting (List α)
  | .array _ _ items => items.mapM read
  | tree => misplaced tree "a sequence"

/-! ## Choices -/

/-- The variant with the given name. -/
def variant (name : String) (span : Span) (variants : List (String × α)) : Fitting α :=
  match variants.lookup name with
  | some a => .ok a
  | none => .error ⟨span, .unknownVariant name (variants.map (·.1))⟩

/-- Nothing can stand beside the name of a variant but an empty table or array. -/
def checkContent : Tree → Fitting Unit
  | .table _ _ [] | .array _ _ [] => .ok ()
  | .table span _ _ => .error ⟨span, .fullTable⟩
  | .array span _ _ => .error ⟨span, .fullArray⟩
  | .leaf span s => .error ⟨span, .wrongContent s.kind⟩

/-- One of several variants: its name, or a table with its name as the only key. -/
def readChoice (variants : List (String × α)) : Tree → Fitting α
  | .leaf span (.text s) => variant s span variants
  | .table _ _ [(key, content)] => do
    let a ← variant key.text key.span variants
    checkContent content
    return a
  | .table span _ [] => .error ⟨span, .emptyChoice⟩
  | .table span _ _ => .error ⟨span, .manyChoices⟩
  | tree => .error ⟨tree.span, .noChoice⟩

/-! ## Fields -/

/-- A field of a record of type `ρ`. -/
structure Field (ρ : Type) where
  /-- The name in messages. -/
  name : String
  /-- The keys under which a table may have it. -/
  keys : List String
  /-- The field may be missing. -/
  isOptional : Bool := true
  /-- Reads the value into the record. -/
  put : Tree → ρ → Fitting ρ

/-- How a record is read. -/
structure Schema (ρ : Type) where
  /-- The name in messages. -/
  name : String
  /-- The fields in declared order. -/
  fields : List (Field ρ)
  /-- The record before any field is read. -/
  blank : ρ

namespace Schema

/-- The keys of all fields. -/
def keys (s : Schema ρ) : List String := s.fields.flatMap (·.keys)

/-- The field that a key stands for. -/
def field? (s : Schema ρ) (key : String) : Option (Field ρ) :=
  s.fields.find? (·.keys.contains key)

/-- Reads the entries of a table into a record. `seen` names the fields that were read before. -/
def visit (s : Schema ρ) (span : Span) : Entries → List String → ρ → Fitting ρ
  | [], seen, record =>
    match s.fields.find? fun f => !f.isOptional && !seen.contains f.name with
    | some f => .error ⟨span, .missingField f.name⟩
    | none => .ok record
  | (key, value) :: rest, seen, record =>
    match s.field? key.text with
    | none => .error ⟨key.span, .unknownField key.text s.keys⟩
    | some f =>
      if seen.contains f.name then .error ⟨span, .duplicateField f.name⟩
      else do s.visit span rest (f.name :: seen) (← f.put value record)

/-- Reads the items of an array into a record. Items after the last field are of no concern. -/
def fill (s : Schema ρ) (span : Span) (length : Nat) :
    List (Field ρ) → List Tree → ρ → Fitting ρ
  | f :: fields, item :: items, record => do s.fill span length fields items (← f.put item record)
  | f :: fields, [], record =>
    if f.isOptional then s.fill span length fields [] record
    else .error ⟨span, .tooShort length s.name s.fields.length⟩
  | [], _, record => .ok record

/-- The entries in the order in which they are visited. -/
def ordered (entries : Entries) : Entries :=
  entries.mergeSort fun a b => decide (a.1.text ≤ b.1.text)

/-- The key as which a table would have to name a moment. -/
def momentKey : String := "$__toml_private_datetime"

/-- Reads a record. -/
def read (s : Schema ρ) : Tree → Fitting ρ
  | .table span _ entries => s.visit span (ordered entries) [] s.blank
  | .array span _ items => s.fill span items.length s.fields items s.blank
  | .leaf span .moment => .error ⟨span, .unknownField momentKey s.keys⟩
  | tree => misplaced tree s.name

end Schema

end AttributeTables.Toml
