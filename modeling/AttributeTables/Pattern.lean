import AttributeTables.Pattern.Extent
import AttributeTables.Pattern.Meaning
import AttributeTables.Pattern.Source

/-!
# Patterns

A pattern is a regular expression for a part of a text.
-/

namespace AttributeTables

/-- A pattern. -/
structure Pattern where
  expression : Pattern.Expression
  deriving DecidableEq

namespace Pattern

/-- Why a text is no pattern. -/
inductive Refusal where
  | faulty (f : Fault)
  /-- The pattern would need more memory than this. -/
  | tooLarge (limit : Nat)
  /-- The pattern asks for words of all letters, of which nothing is known. -/
  | unknownLetters
  deriving DecidableEq

/-- The text for the user. -/
def Refusal.message (source : String) : Refusal → String
  | .faulty f => f.render source.toList
  | .tooLarge limit => "Compiled regex exceeds size limit of " ++ toString limit ++ " bytes."
  | .unknownLetters => "error building NFA"

/-- The most memory that a pattern can have, in bytes. -/
def maxExtent : Nat := 10 * 1024 * 1024

/-- The pattern that a text denotes. -/
def ofText (source : String) : Except Refusal Pattern :=
  match read source.toList >>= fun node => node.meaning.run' {} with
  | .error f => .error (.faulty f)
  | .ok e =>
    if maxExtent < e.extent then .error (.tooLarge maxExtent)
    else if e.needsLetters then .error .unknownLetters
    else .ok ⟨e⟩

/-- The pattern fits some part of the text. -/
def occursIn (p : Pattern) (text : String) : Bool := p.expression.occursIn text

end Pattern

end AttributeTables
