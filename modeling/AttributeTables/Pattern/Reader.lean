import AttributeTables.Pattern.Fault
import AttributeTables.Pattern.Node
import AttributeTables.Text.Blank

/-!
# Reading patterns

A reader takes characters from the front of a pattern and keeps their place. In a loose part blanks
and comments say nothing.
-/

namespace AttributeTables.Pattern

/-- A place in a pattern: what is left of it, and how many characters came before. -/
structure Cursor where
  position : Nat := 0
  rest : List Char
  isLoose : Bool := false
  /-- The names of groups so far. -/
  names : List (List Char × Span) := []

/-- A reader reads something and moves the cursor, or finds a fault. -/
abbrev Reader := StateT Cursor (Except Fault)

/-- The characters without blanks and comments in front; the flag says that a comment has begun. -/
def dropLoose : Bool → List Char → List Char
  | _, [] => []
  | true, c :: cs => dropLoose (c != '\n') cs
  | false, c :: cs =>
    if Text.isBlank c then dropLoose false cs
    else if c == '#' then dropLoose true cs
    else c :: cs

/-- The first character that is neither blank nor begins the first comment. -/
def firstSolid? (comment : Bool) : List Char → Option Char
  | [] => none
  | c :: cs =>
    if Text.isBlank c then firstSolid? comment cs
    else if c == '#' && !comment then firstSolid? true cs
    else some c

namespace Reader

/-- The place. -/
def here : Reader Nat := return (← get).position

/-- What is left. -/
def rest : Reader (List Char) := return (← get).rest

/-- The next character. -/
def peek? : Reader (Option Char) := return (← get).rest.head?

/-- The character after the next one, without what says nothing. -/
def secondSolid? : Reader (Option Char) := do
  let cursor ← get
  return if cursor.isLoose then firstSolid? false (cursor.rest.drop 1) else cursor.rest[1]?

/-- A fault between two places. -/
def faultFrom (start stop : Nat) (cause : Cause) : Reader α := throw ⟨⟨start, stop⟩, cause⟩

/-- A fault right before the next character. -/
def faultBefore (cause : Cause) : Reader α := do
  let p ← here
  faultFrom p p cause

/-- A fault of the next character. -/
def faultAt (cause : Cause) : Reader α := do
  let p ← here
  faultFrom p (p + 1) cause

/-- Moves to a later text. -/
def moveTo (rest : List Char) : Reader Unit :=
  modify fun cursor =>
    { cursor with position := cursor.position + (cursor.rest.length - rest.length), rest }

/-- Moves over a character. -/
def skip : Reader Unit := do moveTo ((← rest).drop 1)

/-- Moves over what says nothing. -/
def skipLoose : Reader Unit := do
  if (← get).isLoose then moveTo (dropLoose false (← rest))

/-- Moves over blanks. -/
def skipBlanks : Reader Unit := do moveTo ((← rest).dropWhile Text.isBlank)

/-- Moves over a character and what says nothing after it, and gives the next one. -/
def advance : Reader (Option Char) := do
  skip
  skipLoose
  peek?

/-- Moves over one of several texts if it comes next. -/
def accept : List (List Char) → Reader Bool
  | [] => return false
  | text :: others => do
    let cs ← rest
    if text.isPrefixOf cs then
      moveTo (cs.drop text.length)
      return true
    else accept others

/-- Takes the longest run of characters of a class, with what says nothing between them. The last
argument only bounds their number. -/
def takeWhile (p : Char → Bool) : List Char → Reader (List Char)
  | [] => return []
  | _ :: fuel => do
    match ← peek? with
    | some c =>
      if p c then
        let _ ← advance
        return c :: (← takeWhile p fuel)
      else return []
    | none => return []

end Reader

end AttributeTables.Pattern
