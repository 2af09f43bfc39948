import AttributeTables.Text.Quoted
import AttributeTables.Toml.Tree

/-!
# Misfits

A document can be well formed and yet not have the shape that its reader asks for. A misfit says
where, and why.
-/

namespace AttributeTables.Toml

/-! ## Kinds of values -/

/-- The kind of the value in one word. -/
def Scalar.kind : Scalar → String
  | .text _ => "string"
  | .integer _ | .unreadable => "integer"
  | .float _ => "float"
  | .boolean _ => "boolean"
  | .moment => "datetime"

/-- The value as messages describe it. A moment counts as a map. -/
def Scalar.description : Scalar → String
  | .text s => "string " ++ Text.quoted s
  | .integer n => "integer `" ++ toString n ++ "`"
  | .unreadable => "integer"
  | .float x => "floating point `" ++ x.text?.getD "" ++ "`"
  | .boolean b => "boolean `" ++ (if b then "true" else "false") ++ "`"
  | .moment => "map"

/-- The value as messages describe it. -/
def Tree.description : Tree → String
  | .leaf _ s => s.description
  | .array _ _ _ => "sequence"
  | .table _ _ _ => "map"

/-! ## Reasons -/

/-- A list of names as messages give it. -/
def alternatives (names : List String) : String :=
  let quoted := names.map fun name => "`" ++ name ++ "`"
  match quoted with
  | [a, b] => a ++ " or " ++ b
  | _ => "one of " ++ ", ".intercalate quoted

/-- What does not fit. -/
inductive Reason where
  /-- The record has no such field. -/
  | unknownField (name : String) (expected : List String)
  | missingField (name : String)
  /-- The field is there under two of its names. -/
  | duplicateField (name : String)
  /-- The value is of another kind. -/
  | wrongKind (found expected : String)
  /-- An array stands for a record, and is too short. -/
  | tooShort (length : Nat) (record : String) (fields : Nat)
  /-- The choice has no such variant. -/
  | unknownVariant (name : String) (expected : List String)
  /-- Only a text or a table can be a choice. -/
  | noChoice
  /-- A table is a choice only with one key. -/
  | emptyChoice
  | manyChoices
  /-- What stands beside the variant's name is neither a table nor an array. -/
  | wrongContent (kind : String)
  /-- The table beside the variant's name has entries. -/
  | fullTable
  /-- The array beside the variant's name has items. -/
  | fullArray
  deriving DecidableEq

/-- The text for the user. -/
def Reason.message : Reason → String
  | .unknownField name expected =>
    "unknown field `" ++ name ++ "`, expected " ++ alternatives expected
  | .missingField name => "missing field `" ++ name ++ "`"
  | .duplicateField name => "duplicate field `" ++ name ++ "`"
  | .wrongKind found expected => "invalid type: " ++ found ++ ", expected " ++ expected
  | .tooShort length record fields =>
    "invalid length " ++ toString length ++ ", expected " ++ record ++ " with " ++
      toString fields ++ (if fields == 1 then " element" else " elements")
  | .unknownVariant name expected =>
    "unknown variant `" ++ name ++ "`, expected " ++ alternatives expected
  | .noChoice => "wanted string or table"
  | .emptyChoice => "wanted exactly 1 element, found 0 elements"
  | .manyChoices => "wanted exactly 1 element, more than 1 element"
  | .wrongContent kind => "expected table, found " ++ kind
  | .fullTable => "expected empty table"
  | .fullArray => "expected empty array"

/-- A place in a document and what is wrong there. -/
structure Misfit where
  span : Span
  reason : Reason
  deriving DecidableEq

end AttributeTables.Toml
