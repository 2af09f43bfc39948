import AttributeTables.Output

/-!
# Output into a bounded space

A writer that takes the text piece by piece and gives up as soon as it holds more bytes than it may.
-/

namespace AttributeTables.Output

/-- A writer with a limit in bytes, and what it holds. -/
structure Bounded where
  limit : Nat
  held : String := ""
  deriving DecidableEq

namespace Bounded

/-- The writer holds more than it may. -/
def isOver (w : Bounded) : Bool := w.limit < w.held.utf8ByteSize

/-- Takes a piece of text. -/
def write (w : Bounded) (s : String) : Bounded := { w with held := w.held ++ s }

end Bounded

/-- How the output into a bounded writer can fail. -/
inductive BoundedFailure where
  | generation (failure : Failure)
  /-- The writer gave up. -/
  | full
  deriving DecidableEq

/-- The text for the user. -/
def BoundedFailure.message : BoundedFailure → String
  | .generation failure => failure.message
  | .full => "Failed to format generated output"

end AttributeTables.Output
