import AttributeTables.Pattern.CharSet
import AttributeTables.Pattern.Node

/-!
# Regular expressions

What a pattern means: from which places of a text to which other places it leads. A place is the
number of characters before it.
-/

namespace AttributeTables.Pattern

/-! ## Anchors -/

/-- A condition on a place. Lines end at a newline, or, if so said, also at a carriage return. -/
inductive Anchor where
  | textStart
  | textEnd
  | lineStart (atReturn : Bool)
  | lineEnd (atReturn : Bool)
  /-- A boundary of words, which are of ASCII letters only or of all letters. -/
  | boundary (b : Boundary) (isAscii : Bool)
  deriving DecidableEq

/-- The character belongs to a word of ASCII letters. -/
def isWordChar (c : Char) : Bool := c.isAlphanum || c == '_'

/-- The place between two characters, if they are there, is such a boundary. -/
def Boundary.holds (b : Boundary) (before after : Option Char) : Bool :=
  let left := before.any isWordChar
  let right := after.any isWordChar
  match b with
  | .edge => left != right
  | .interior => left == right
  | .opening => !left && right
  | .closing => left && !right
  | .halfOpening => !left
  | .halfClosing => !right

/-- The condition holds between two characters, if they are there. -/
def Anchor.holds (a : Anchor) (before after : Option Char) : Bool :=
  match a with
  | .textStart => before.isNone
  | .textEnd => after.isNone
  | .lineStart atReturn =>
    before.isNone || before == some '\n' || (atReturn && before == some '\r' && after != some '\n')
  | .lineEnd atReturn =>
    after.isNone || (atReturn && after == some '\r') ||
      (after == some '\n' && !(atReturn && before == some '\r'))
  | .boundary b _ => b.holds before after

/-! ## Expressions -/

/-- A regular expression. -/
inductive Expression where
  | empty
  | chars (s : CharSet)
  | look (a : Anchor)
  /-- A part whose place is kept. -/
  | capture (e : Expression)
  | seq (a b : Expression)
  | alt (a b : Expression)
  | repeated (e : Expression) (min : Nat) (max : Option Nat)
  deriving DecidableEq

namespace Expression

/-- One expression after the other. -/
def ofParts : List Expression → Expression
  | [] => .empty
  | [e] => e
  | e :: rest => .seq e (ofParts rest)

/-- The characters of several expressions, if each of them is a set of characters. -/
def allChars? : List Expression → Option CharSet
  | [] => some .empty
  | .chars s :: rest => (allChars? rest).map s.union
  | _ => none

/-- One of several expressions, each with a choice of its own. -/
def ofAlternatives : List Expression → Expression
  | [] => .chars .empty
  | [e] => e
  | e :: rest => .alt e (ofAlternatives rest)

/-- One of several expressions. Sets of characters are one set together. -/
def ofBranches (branches : List Expression) : Expression :=
  match allChars? branches with
  | some s => .chars s
  | none => ofAlternatives branches

/-- The expression leads nowhere but to where it starts. -/
def isStill : Expression → Bool
  | .empty | .look _ => true
  | .chars _ => false
  | .capture e => e.isStill
  | .seq a b | .alt a b => a.isStill && b.isStill
  | .repeated e _ max => e.isStill || max == some 0

/-- The expression can lead to where it starts. -/
def canStay : Expression → Bool
  | .empty | .look _ => true
  | .chars _ => false
  | .capture e => e.canStay
  | .seq a b => a.canStay && b.canStay
  | .alt a b => a.canStay || b.canStay
  | .repeated e min _ => min == 0 || e.canStay

/-- A repeated expression. More than one repetition of nothing is one. -/
def repetition (e : Expression) (min : Nat) (max : Option Nat) : Expression :=
  let (min, max) := if e.isStill then (Nat.min min 1, some ((max.getD 1).min 1)) else (min, max)
  if max == some 0 then .empty
  else if min == 1 && max == some 1 then e
  else .repeated e min max

/-- Some condition is on words of all letters. -/
def needsLetters : Expression → Bool
  | .empty | .chars _ => false
  | .look (.boundary _ isAscii) => !isAscii
  | .look _ => false
  | .capture e | .repeated e _ _ => e.needsLetters
  | .seq a b | .alt a b => a.needsLetters || b.needsLetters

/-! ## Places -/

/-- Both lists of places in increasing order. -/
def together (s t : List Nat) : List Nat := ((s ++ t).mergeSort (· ≤ ·)).eraseReps

/-- A step, some number of times. Once it changes nothing it never will. -/
def times (step : List Nat → List Nat) : Nat → List Nat → List Nat
  | 0, places => places
  | n + 1, places =>
    let next := step places
    if next == places then places else times step n next

/-- The places that up to some number of steps lead to. `front` holds those that the last step has
added to `places`. -/
def upTo (step : List Nat → List Nat) : Nat → List Nat → List Nat → List Nat
  | 0, _, places => places
  | n + 1, front, places =>
    let fresh := (step front).filter fun p => !places.contains p
    if fresh.isEmpty then places else upTo step n fresh (together places fresh)

/-- The character before a place. -/
def before? (text : Array Char) : Nat → Option Char
  | 0 => none
  | p + 1 => text[p]?

/-- The places in a text to which the expression leads from some others, in increasing order. -/
def after (text : Array Char) : Expression → List Nat → List Nat
  | .empty, places => places
  | .chars s, places => (places.filter fun p => text[p]?.any s.contains).map (· + 1)
  | .look a, places => places.filter fun p => a.holds (before? text p) text[p]?
  | .capture e, places => e.after text places
  | .seq a b, places => b.after text (a.after text places)
  | .alt a b, places => together (a.after text places) (b.after text places)
  | .repeated e min max, places =>
    let least := times (e.after text) min places
    let more := match max with
      | some max => max - min
      | none => text.size + 1
    upTo (e.after text) more least least

/-- The expression fits some part of the text. -/
def occursIn (e : Expression) (text : String) : Bool :=
  let text := text.toList.toArray
  !(e.after text (List.range (text.size + 1))).isEmpty

end Expression

end AttributeTables.Pattern
