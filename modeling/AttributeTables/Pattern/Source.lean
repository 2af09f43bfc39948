import AttributeTables.Pattern.Brackets
import AttributeTables.Pattern.Opening

/-!
# Patterns from their texts
-/

namespace AttributeTables.Pattern

open Reader

/-! ## Repetition -/

/-- A number of 32 bits with blanks around it. Only who uses it sees its fault. -/
def decimal : Reader (Except Fault Nat) := do
  skipBlanks
  let start ← here
  let digits ← takeWhile Char.isDigit (← rest)
  let span : Span := ⟨start, ← here⟩
  skipBlanks
  let n := Text.ofDigits 10 (digits.filterMap Text.decimalDigit?)
  return if digits.isEmpty then .error ⟨span, .emptyNumber⟩
    else if n < UInt32.size then .ok n
    else .error ⟨span, .largeNumber⟩

/-- Moves over a question mark, which only says that few repetitions are wanted. -/
def skipLazy (next : Option Char) : Reader Unit := do
  if next == some '?' then skip

/-- The numbers in braces, from the opening one on. -/
def counts (start : Nat) : Reader (Nat × Option Nat) := do
  let unclosed : Reader Unit := do faultFrom start (← here) .unclosedCounts
  if (← advance).isNone then unclosed
  let low ← decimal
  if (← peek?).isNone then unclosed
  if (← peek?) != some ',' then
    let n ← low
    return (n, some n)
  if (← advance).isNone then unclosed
  if (← peek?) == some '\x7d' then return (← low, none)
  let min ← low
  let max ← (← decimal)
  return (min, some max)

/-- A part repeated as often as numbers in braces say. -/
def countedRepetition (node : Node) : Reader Node := do
  let start ← here
  let (min, max) ← counts start
  if (← peek?) != some '\x7d' then faultFrom start (← here) .unclosedCounts
  skipLazy (← advance)
  let stop ← here
  if max.any (· < min) then faultFrom start stop .reversedCounts
  return .repeated ⟨node.span.start, stop⟩ node min max

/-- The counts that a sign stands for. -/
def signCounts? : Char → Option (Nat × Option Nat)
  | '?' => some (0, some 1)
  | '*' => some (0, none)
  | '+' => some (1, none)
  | _ => none

/-- A part repeated as a sign says. -/
def signRepetition (node : Node) (min : Nat) (max : Option Nat) : Reader Node := do
  skip
  skipLazy (← peek?)
  return .repeated ⟨node.span.start, ← here⟩ node min max

/-- The part with the repetition that comes next. -/
def repetition (c : Char) (node : Node) : Reader Node := do
  if !node.isRepeatable then faultBefore .nothingRepeated
  match signCounts? c with
  | some (min, max) => signRepetition node min max
  | none => countedRepetition node

/-! ## Levels -/

/-- A level of a pattern that is being read: the whole, or the inside of a group. -/
structure Level where
  /-- Where the first branch starts. -/
  start : Nat := 0
  /-- The branches before the present one, the last one first. -/
  branches : List Node := []
  /-- Where the present branch starts. -/
  branchStart : Nat := start
  /-- Its parts, the last one first. -/
  parts : List Node := []

namespace Level

/-- The level with one more part. -/
def push (l : Level) (node : Node) : Level := { l with parts := node :: l.parts }

/-- The present branch. -/
def branch (l : Level) (stop : Nat) : Node := .ofParts ⟨l.branchStart, stop⟩ l.parts.reverse

/-- The level with a new branch after a bar. -/
def divide (l : Level) (bar : Nat) : Level :=
  { l with branches := l.branch bar :: l.branches, branchStart := bar + 1, parts := [] }

/-- What was read on the level. -/
def close (l : Level) (stop : Nat) : Node :=
  .ofBranches ⟨l.start, stop⟩ (l.branch stop :: l.branches).reverse

end Level

/-- An atom without a backslash. -/
def plainAtom (c : Char) : Reader Atom := do
  let start ← here
  let span : Span := ⟨start, start + 1⟩
  skip
  return if c == '.' then .dot span
    else if c == '^' then .look span .lineStart
    else if c == '$' then .look span .lineEnd
    else .letter ⟨span, c, false⟩

/-- An atom. -/
def atom (c : Char) : Reader Atom := if c == '\\' then escape else plainAtom c

/-- Decides whether blanks and comments say nothing from here on. -/
def setLoose (isLoose : Bool) : Reader Unit := modify fun cursor => { cursor with isLoose }

/-- The closing parenthesis of a group. -/
def closeGroup (span : Span) (isCaptured : Bool) (flags : Flags) (inside : Node)
    (wasLoose : Bool) : Reader Node := do
  if (← peek?).isNone then throw ⟨span, .unclosedGroup⟩
  setLoose wasLoose
  skip
  return .group ⟨span.start, ← here⟩ isCaptured flags inside

/-- The rest of a level up to a closing parenthesis or the end. The first argument only bounds the
number of steps. -/
def closeLevel : List Char → Level → Reader Node
  | [], l => return l.close (← here)
  | _ :: fuel, l => do
    skipLoose
    match ← peek? with
    | none | some ')' => return l.close (← here)
    | some '|' =>
      let bar ← here
      skip
      closeLevel fuel (l.divide bar)
    | some '(' =>
      match ← opening with
      | .flags span flags =>
        setLoose ((flags.lookup .loose).getD (← get).isLoose)
        closeLevel fuel (l.push (.flags span flags))
      | .group span isCaptured flags =>
        let wasLoose := (← get).isLoose
        setLoose ((flags.lookup .loose).getD wasLoose)
        let inside ← closeLevel fuel { start := ← here }
        closeLevel fuel (l.push (← closeGroup span isCaptured flags inside wasLoose))
    | some '[' => closeLevel fuel (l.push (← brackets))
    | some c =>
      if c == '\x7b' || (signCounts? c).isSome then
        match l.parts with
        | [] => faultBefore .nothingRepeated
        | node :: parts => closeLevel fuel { l with parts := (← repetition c node) :: parts }
      else closeLevel fuel (l.push (.atom (← atom c)))

/-! ## Patterns -/

/-- Groups and classes are at most so deep inside one another. -/
def maxDepth : Nat := 250

/-- The pattern that a text denotes, from the front of the text. -/
def pattern : Reader Node := do
  let node ← closeLevel (' ' :: (← rest)) {}
  if (← peek?).isSome then faultAt .unopenedGroup
  match node.tooDeep? maxDepth 0 with
  | some span => throw ⟨span, .tooDeep maxDepth⟩
  | none => return node

/-- The pattern that a text denotes. -/
def read (cs : List Char) : Except Fault Node := pattern.run' { rest := cs }

end AttributeTables.Pattern
