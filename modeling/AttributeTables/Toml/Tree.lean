import AttributeTables.Decimal.Shortest
import AttributeTables.Text.Span

/-!
# Trees of TOML documents

What a document says, together with the place where it says so.
-/

namespace AttributeTables.Toml

/-- A number with a fraction or an exponent, as it is written. -/
inductive FloatText where
  /-- The number `digits * 10 ^ exponent`, with its sign. -/
  | finite (negative : Bool) (digits : Nat) (exponent : Int)
  | infinite (negative : Bool)
  | notANumber
  deriving DecidableEq

/-- A value without parts. -/
inductive Scalar where
  | text (s : String)
  | integer (n : Int)
  /-- A text that begins like an integer and is none. -/
  | unreadable
  | float (x : FloatText)
  | boolean (b : Bool)
  /-- A date, a time, or both. -/
  | moment
  deriving DecidableEq

/-- A key where it is written, quotes included in the span. -/
structure Key where
  text : String
  span : Span
  deriving DecidableEq

/-- How a table came to be, which decides what may be added to it. -/
inductive TableOrigin where
  /-- By its own header. -/
  | header
  /-- By the header of a table inside it. -/
  | implied
  /-- By a dotted key. -/
  | dotted
  /-- In braces. -/
  | inline
  deriving DecidableEq

/-- How an array came to be. -/
inductive ArrayOrigin where
  /-- By headers in double brackets. -/
  | headers
  /-- In brackets. -/
  | inline
  deriving DecidableEq

/-- A value. The entries of a table are in the order of the document. -/
inductive Tree where
  | leaf (span : Span) (value : Scalar)
  | array (span : Span) (origin : ArrayOrigin) (items : List Tree)
  | table (span : Span) (origin : TableOrigin) (entries : List (Key × Tree))

mutual

/-- Decides whether two values are the same, places included. -/
def Tree.decEq : (t t' : Tree) → Decidable (t = t')
  | .leaf span value, .leaf span' value' =>
    decidable_of_iff (span = span' ∧ value = value') (by simp)
  | .array span origin items, .array span' origin' items' =>
    have := Tree.decEqItems items items'
    decidable_of_iff (span = span' ∧ origin = origin' ∧ items = items') (by simp)
  | .table span origin entries, .table span' origin' entries' =>
    have := Tree.decEqEntries entries entries'
    decidable_of_iff (span = span' ∧ origin = origin' ∧ entries = entries') (by simp)
  | .leaf _ _, .array _ _ _ | .leaf _ _, .table _ _ _ | .array _ _ _, .leaf _ _
  | .array _ _ _, .table _ _ _ | .table _ _ _, .leaf _ _ | .table _ _ _, .array _ _ _ =>
    isFalse nofun

/-- Decides it for the items of arrays. -/
def Tree.decEqItems : (ts ts' : List Tree) → Decidable (ts = ts')
  | [], [] => isTrue rfl
  | t :: ts, t' :: ts' =>
    have := Tree.decEq t t'
    have := Tree.decEqItems ts ts'
    decidable_of_iff (t = t' ∧ ts = ts') (by simp)
  | [], _ :: _ | _ :: _, [] => isFalse nofun

/-- Decides it for the entries of tables. -/
def Tree.decEqEntries : (es es' : List (Key × Tree)) → Decidable (es = es')
  | [], [] => isTrue rfl
  | (key, t) :: es, (key', t') :: es' =>
    have := Tree.decEq t t'
    have := Tree.decEqEntries es es'
    decidable_of_iff ((key = key' ∧ t = t') ∧ es = es') (by simp)
  | [], _ :: _ | _ :: _, [] => isFalse nofun

end

instance : DecidableEq Tree := Tree.decEq

/-- The entries of a table. -/
abbrev Entries := List (Key × Tree)

/-- The place of a value. -/
def Tree.span : Tree → Span
  | .leaf span _ | .array span _ _ | .table span _ _ => span

/-! ## Usable numbers -/

/-- The number, or `none` if it is too large for 64 bits. -/
def FloatText.text? : FloatText → Option String
  | .finite negative digits exponent =>
    (Decimal.Binary.ofDecimal? digits exponent).map fun b =>
      (if negative then "-" else "") ++ b.shortest.positional
  | .infinite negative => some (if negative then "-inf" else "inf")
  | .notANumber => some "NaN"

/-- The scalar has a value. Integers have 64 bits with a sign, and fractions are numbers of 64
bits. -/
def Scalar.isUsable : Scalar → Bool
  | .integer n => Int64.minValue.toInt ≤ n && n ≤ Int64.maxValue.toInt
  | .unreadable => false
  | .float x => x.text?.isSome
  | _ => true

end AttributeTables.Toml
