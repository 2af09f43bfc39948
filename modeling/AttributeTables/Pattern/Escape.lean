import AttributeTables.Pattern.Reader
import AttributeTables.Text.Digits

/-!
# Escapes in patterns

What a backslash and the characters after it stand for.
-/

namespace AttributeTables.Pattern

open Reader
open Text (hexDigit? ofDigits charOfCode?)

/-! ## Characters by number -/

/-- The number of digits after the letter of an escape by number. -/
def codeDigits? : Char → Option Nat
  | 'x' => some 2
  | 'u' => some 4
  | 'U' => some 8
  | _ => none

/-- The character with the number that the digits give. -/
def coded (start stop : Nat) (digits : List Char) : Reader Char := do
  match charOfCode? (ofDigits 16 (digits.filterMap hexDigit?)) with
  | some c => return c
  | none => faultFrom start stop .unknownCode

/-- The digits of a number with a fixed count of them. -/
def fixedDigits : Nat → Reader (List Char)
  | 0 => return []
  | count + 1 => do
    match ← peek? with
    | none => faultBefore .unfinishedEscape
    | some c =>
      if (hexDigit? c).isNone then faultAt .badCodeDigit
      let _ ← advance
      return c :: (← fixedDigits count)

/-- A number in braces, from the opening one on. -/
def bracedCode : Reader Char := do
  let brace ← here
  let _ ← advance
  let digits ← takeWhile (fun c => (hexDigit? c).isSome) (← rest)
  match ← peek? with
  | none => faultFrom brace (← here) .unfinishedEscape
  | some '\x7d' =>
    let stop ← here
    let _ ← advance
    if digits.isEmpty then faultFrom brace (← here) .emptyCode
    coded (brace + 1) stop digits
  | some _ => faultAt .badCodeDigit

/-- A character by its number, from the letter on. -/
def codedLetter (start count : Nat) : Reader Letter := do
  match ← advance with
  | none => faultBefore .unfinishedEscape
  | some '\x7b' =>
    let c ← bracedCode
    return ⟨⟨start, ← here⟩, c, false⟩
  | some _ =>
    let first ← here
    let digits ← fixedDigits count
    let c ← coded first (← here) digits
    return ⟨⟨start, ← here⟩, c, count == 2⟩

/-! ## Classes -/

/-- The text has one of the separators between a property and its value. -/
def hasValue : List Char → Bool
  | [] => false
  | c :: cs => c == ':' || c == '=' || hasValue cs

/-- A class of the characters with a property, from the letter on. -/
def property (start : Nat) (isNegated : Bool) : Reader NamedClass := do
  match ← advance with
  | none => faultBefore .unfinishedEscape
  | some '\x7b' =>
    let _ ← advance
    let name ← takeWhile (· != '\x7d') (← rest)
    if (← peek?).isNone then faultBefore .unfinishedEscape
    skip
    return ⟨⟨start, ← here⟩, .property name (hasValue name), isNegated⟩
  | some c =>
    if c == '\\' then faultAt .badProperty
    let _ ← advance
    return ⟨⟨start, ← here⟩, .property [c] false, isNegated⟩

/-- The class that a letter stands for, and whether its complement is meant. -/
def shorthand? : Char → Option (Shorthand × Bool)
  | 'd' => some (.digit, false)
  | 's' => some (.space, false)
  | 'w' => some (.word, false)
  | 'D' => some (.digit, true)
  | 'S' => some (.space, true)
  | 'W' => some (.word, true)
  | _ => none

/-! ## Looks -/

/-- A character of a name of a boundary. -/
def isBoundaryChar (c : Char) : Bool := c.isAlpha || c == '-'

/-- The boundary with the given name. -/
def boundary? (name : List Char) : Option Boundary :=
  [("start", Boundary.opening), ("end", .closing), ("start-half", .halfOpening),
    ("end-half", .halfClosing)].lookup (String.ofList name)

/-- The boundary after its letter, from the brace around its name on. If no name can be there the
brace is left where it is. -/
def namedBoundary? (start : Nat) : Reader (Option Boundary) := do
  let before ← get
  let brace ← here
  match ← advance with
  | none => faultFrom start (← here) .unfinishedBoundary
  | some c =>
    if isBoundaryChar c then
      let first ← here
      let name ← takeWhile isBoundaryChar (← rest)
      if (← peek?) != some '\x7d' then faultFrom brace (← here) .unclosedBoundary
      let stop ← here
      skip
      match boundary? name with
      | some b => return some b
      | none => faultFrom first stop .unknownBoundary
    else
      set before
      return none

/-- The boundary after its letter. -/
def boundary (start : Nat) : Reader Atom := do
  let stop ← here
  let named ← if (← peek?) == some '\x7b' then namedBoundary? start else pure none
  match named with
  | some b => return .look ⟨start, ← here⟩ (.boundary b)
  | none => return .look ⟨start, stop⟩ (.boundary .edge)

/-- The look that a character stands for. -/
def look? : Char → Option Look
  | 'A' => some .textStart
  | 'z' => some .textEnd
  | 'B' => some (.boundary .interior)
  | '<' => some (.boundary .opening)
  | '>' => some (.boundary .closing)
  | _ => none

/-! ## Escapes -/

/-- The character that a letter stands for. -/
def control? : Char → Option Char
  | 'a' => some '\x07'
  | 'f' => some '\x0c'
  | 't' => some '\t'
  | 'n' => some '\n'
  | 'r' => some '\r'
  | 'v' => some '\x0b'
  | _ => none

/-- The character stands for itself after a backslash. -/
def isEscapable (c : Char) : Bool := c.toNat < 128 && !c.isAlphanum && c != '<' && c != '>'

/-- An escape whose character has been passed. -/
def simpleEscape (start : Nat) (c : Char) : Reader Atom := do
  let span : Span := ⟨start, ← here⟩
  if isEscapable c then return .letter ⟨span, c, false⟩
  else if c == 'b' then boundary start
  else
    match control? c, look? c with
    | some d, _ => return .letter ⟨span, d, false⟩
    | none, some look => return .look span look
    | none, none => throw ⟨span, .unknownEscape⟩

/-- An escape. -/
def escape : Reader Atom := do
  let start ← here
  skip
  match ← peek? with
  | none => faultFrom start (← here) .unfinishedEscape
  | some c =>
    if c.isDigit then faultFrom start ((← here) + 1) .backreference
    else if c == 'p' || c == 'P' then return .named (← property start (c == 'P'))
    else
      match codeDigits? c, shorthand? c with
      | some count, _ => return .letter (← codedLetter start count)
      | none, some (s, isNegated) =>
        skip
        return .named ⟨⟨start, ← here⟩, .shorthand s, isNegated⟩
      | none, none =>
        skip
        simpleEscape start c

end AttributeTables.Pattern
