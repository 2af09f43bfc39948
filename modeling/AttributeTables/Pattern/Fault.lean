import AttributeTables.Text.Lines
import AttributeTables.Text.Span

/-!
# Faults of patterns

What can be wrong with a pattern. A fault is shown with the lines of the pattern and with marks
under its place.
-/

namespace AttributeTables.Pattern

/-- What is wrong. Some faults point to an earlier place too. -/
inductive Cause where
  /-- No character is meant where a class wants one. -/
  | noCharacter
  | reversedRange
  /-- An end of a range is no character. -/
  | rangeEnd
  | unclosedClass
  /-- The number does not have 32 bits. -/
  | largeNumber
  | emptyNumber
  | emptyCode
  | unknownCode
  | badCodeDigit
  | unfinishedEscape
  | unknownEscape
  | danglingMinus
  | repeatedMinus (first : Span)
  | repeatedFlag (first : Span)
  | unfinishedFlags
  | unknownFlag
  | repeatedName (first : Span)
  | emptyName
  | badNameCharacter
  | unclosedName
  | unclosedGroup
  | unopenedGroup
  | tooDeep (limit : Nat)
  | reversedCounts
  | unclosedCounts
  /-- There is nothing to repeat. -/
  | nothingRepeated
  | unclosedBoundary
  | unknownBoundary
  | unfinishedBoundary
  | badProperty
  | backreference
  | lookAround
  /-- Only ASCII can be meant. -/
  | beyondAscii
  /-- Parts of characters can be meant. -/
  | brokenCharacters
  | unknownProperty
  | unknownPropertyValue
  /-- There is no table of the class. -/
  | noClassTable
  /-- There is no table of small and capital letters. -/
  | noCaseTable
  deriving DecidableEq

namespace Cause

/-- The text for the user. -/
def message : Cause → String
  | .noCharacter => "invalid escape sequence found in character class"
  | .reversedRange => "invalid character class range, the start must be <= the end"
  | .rangeEnd => "invalid range boundary, must be a literal"
  | .unclosedClass => "unclosed character class"
  | .largeNumber => "decimal literal invalid"
  | .emptyNumber => "repetition quantifier expects a valid decimal"
  | .emptyCode => "hexadecimal literal empty"
  | .unknownCode => "hexadecimal literal is not a Unicode scalar value"
  | .badCodeDigit => "invalid hexadecimal digit"
  | .unfinishedEscape => "incomplete escape sequence, reached end of pattern prematurely"
  | .unknownEscape => "unrecognized escape sequence"
  | .danglingMinus => "dangling flag negation operator"
  | .repeatedMinus _ => "flag negation operator repeated"
  | .repeatedFlag _ => "duplicate flag"
  | .unfinishedFlags => "expected flag but got end of regex"
  | .unknownFlag => "unrecognized flag"
  | .repeatedName _ => "duplicate capture group name"
  | .emptyName => "empty capture group name"
  | .badNameCharacter => "invalid capture group character"
  | .unclosedName => "unclosed capture group name"
  | .unclosedGroup => "unclosed group"
  | .unopenedGroup => "unopened group"
  | .tooDeep limit =>
    "exceed the maximum number of nested parentheses/brackets (" ++ toString limit ++ ")"
  | .reversedCounts => "invalid repetition count range, the start must be <= the end"
  | .unclosedCounts => "unclosed counted repetition"
  | .nothingRepeated => "repetition operator missing expression"
  | .unclosedBoundary =>
    "special word boundary assertion is either unclosed or contains an invalid character"
  | .unknownBoundary =>
    "unrecognized special word boundary assertion, valid choices are: start, end, start-half " ++
      "or end-half"
  | .unfinishedBoundary =>
    "found either the beginning of a special word boundary or a bounded repetition on a \\b " ++
      "with an opening brace, but no closing brace"
  | .badProperty => "invalid Unicode character class"
  | .backreference => "backreferences are not supported"
  | .lookAround => "look-around, including look-ahead and look-behind, is not supported"
  | .beyondAscii => "Unicode not allowed here"
  | .brokenCharacters => "pattern can match invalid UTF-8"
  | .unknownProperty => "Unicode property not found"
  | .unknownPropertyValue => "Unicode property value not found"
  | .noClassTable =>
    "Unicode-aware Perl class not found (make sure the unicode-perl feature is enabled)"
  | .noCaseTable =>
    "Unicode-aware case insensitivity matching is not available (make sure the unicode-case " ++
      "feature is enabled)"

/-- The earlier place. -/
def earlier? : Cause → Option Span
  | .repeatedMinus first | .repeatedFlag first | .repeatedName first => some first
  | _ => none

end Cause

/-- A place in a pattern and what is wrong there. -/
structure Fault where
  span : Span
  cause : Cause
  deriving DecidableEq

namespace Fault

/-- The places at fault in the order of the pattern. -/
def spans (f : Fault) : List Span :=
  match f.cause.earlier? with
  | some first => [first, f.span]
  | none => [f.span]

/-- Marks under parts of a line, which are given by their first columns and those after their ends.
At least one column is marked for each. The first argument counts the columns before. -/
def marks : Nat → List (Nat × Nat) → List Char
  | _, [] => []
  | column, (start, stop) :: rest =>
    let length := max 1 (stop - start)
    List.replicate (start - 1 - column) ' ' ++ List.replicate length '^' ++
      marks (max column (start - 1) + length) rest

/-- The parts of a line that spans cover. Spans that go over several lines are on none. -/
def parts (source : List Char) (spans : List Span) (line : Nat) : List (Nat × Nat) :=
  spans.filterMap fun span =>
    let first := Place.of span.start source
    let last := Place.of span.stop source
    if first.line == line && last.line == line then some (first.column, last.column) else none

/-- Where a span that goes over several lines starts and ends. -/
def extent? (source : List Char) (span : Span) : Option String :=
  let first := Place.of span.start source
  let last := Place.of span.stop source
  if first.line == last.line then none
  else some ("on line " ++ toString first.line ++ " (column " ++ toString first.column ++
    ") through line " ++ toString last.line ++ " (column " ++ toString (last.column - 1) ++ ")")

/-- The lines of the pattern, each after its heading and with marks under it. -/
def excerpt (source : List Char) (spans : List Span) (heading : Nat → String) (indent : Nat) :
    List String :=
  (Text.lines source).zipIdx.flatMap fun (line, n) =>
    let marked := parts source spans (n + 1)
    (heading (n + 1) ++ String.ofList line) ::
      (if marked.isEmpty then []
        else [Text.spaces indent ++ String.ofList (marks 0 marked)])

/-- The fault as it is shown. The lines of a pattern with several lines are numbered. -/
def render (source : List Char) (f : Fault) : String :=
  let count := (Place.of source.length source).line
  let lines :=
    if count ≤ 1 then excerpt source f.spans (fun _ => Text.spaces 4) 4
    else
      let width := (toString count).length
      let number (n : Nat) : String :=
        Text.spaces (width - (toString n).length) ++ toString n ++ ": "
      let rule := String.ofList (List.replicate 79 '~')
      [rule] ++ excerpt source f.spans number (width + 2) ++ [rule] ++
        f.spans.filterMap (extent? source)
  "\n".intercalate (["regex parse error:"] ++ lines ++ ["error: " ++ f.cause.message])

end Fault

end AttributeTables.Pattern
