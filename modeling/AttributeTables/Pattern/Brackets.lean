import AttributeTables.Pattern.Escape

/-!
# Classes in brackets

A class lists characters, ranges, named classes and other classes in brackets, and combines them.
-/

namespace AttributeTables.Pattern

open Reader

/-! ## Items -/

/-- An atom inside brackets, where only a backslash means something. -/
def classAtom (c : Char) : Reader Atom := do
  if c == '\\' then escape
  else
    let start ← here
    skip
    return .letter ⟨⟨start, start + 1⟩, c, false⟩

/-- An atom as a part of a class. -/
def classPart : Atom → Reader ClassNode
  | .letter l => return .letter l
  | .named c => return .named c
  | a => throw ⟨a.span, .noCharacter⟩

/-- An atom as an end of a range. -/
def rangeEnd : Atom → Reader Letter
  | .letter l => return l
  | a => throw ⟨a.span, .rangeEnd⟩

/-- A range after its first end, from the minus on; `unclosed` is the fault of a class without an
end. -/
def range (unclosed : Fault) (first : Atom) : Reader ClassNode := do
  match ← advance with
  | none => throw unclosed
  | some c =>
    let last ← classAtom c
    let a ← rangeEnd first
    let b ← rangeEnd last
    if b.char.toNat < a.char.toNat then faultFrom a.span.start b.span.stop .reversedRange
    return .range a b

/-- A character, a named class or a range. -/
def classItem (unclosed : Fault) (c : Char) : Reader ClassNode := do
  let first ← classAtom c
  skipLoose
  match ← peek? with
  | none => throw unclosed
  | some '-' =>
    let next ← secondSolid?
    if next == some ']' || next == some '-' then classPart first else range unclosed first
  | some _ => classPart first

/-- The rest of a named class after its name. -/
def endName : List Char → Option (List Char)
  | ':' :: ']' :: rest => some rest
  | _ => none

/-- Splits a named class with its own brackets from the front of a text. -/
def splitNamed? (cs : List Char) : Option (AsciiClass × Bool × List Char) := do
  guard (cs.take 2 == ['[', ':'])
  let isNegated := cs[2]? == some '^'
  let (name, rest) := (cs.drop (if isNegated then 3 else 2)).span (· != ':')
  let rest ← endName rest
  let c ← AsciiClass.names.lookup (String.ofList name)
  return (c, isNegated, rest)

/-- A named class in brackets of its own, if there is one. -/
def namedClass? : Reader (Option ClassNode) := do
  match splitNamed? (← rest) with
  | some (c, isNegated, rest) =>
    let start ← here
    moveTo rest
    return some (.named ⟨⟨start, ← here⟩, .ascii c, isNegated⟩)
  | none => return none

/-! ## Operations -/

/-- The operation with the given signs. -/
def operation? (cs : List Char) : Option SetOperation :=
  match cs.take 2 with
  | ['&', '&'] => some .intersection
  | ['-', '-'] => some .difference
  | ['~', '~'] => some .symmetricDifference
  | _ => none

/-! ## Brackets -/

/-- A class that is being read. -/
structure OpenClass where
  /-- The bracket and what was read with it. -/
  span : Span
  isNegated : Bool
  /-- What stands before the last operation, and the operation. -/
  left : Option (ClassNode × SetOperation) := none
  /-- Where the parts after it start. -/
  start : Nat
  /-- These parts, the last one first. -/
  parts : List ClassNode := []

namespace OpenClass

/-- The fault of a class without an end. -/
def unclosed (o : OpenClass) : Fault := ⟨o.span, .unclosedClass⟩

/-- The class with one more part. -/
def push (o : OpenClass) (part : ClassNode) : OpenClass := { o with parts := part :: o.parts }

/-- What was read inside the brackets. -/
def inside (o : OpenClass) : ClassNode :=
  let right := ClassNode.ofParts o.start o.parts.reverse
  match o.left with
  | some (left, op) => .operation op left right
  | none => right

/-- The class after an operation. -/
def operate (o : OpenClass) (op : SetOperation) (start : Nat) : OpenClass :=
  { o with left := some (o.inside, op), start, parts := [] }

end OpenClass

/-- Takes minus signs at the start of a class as characters. The last argument only bounds their
number. -/
def leadingMinus (bracket : Nat) : List Char → Reader (List ClassNode)
  | [] => return []
  | _ :: fuel => do
    if (← peek?) != some '-' then return []
    let start ← here
    if (← advance).isNone then faultFrom bracket bracket .unclosedClass
    return .letter ⟨⟨start, start + 1⟩, '-', false⟩ :: (← leadingMinus bracket fuel)

/-- The start of a class. A closing bracket right there is a character. -/
def openClass : Reader OpenClass := do
  let bracket ← here
  if (← advance).isNone then faultFrom bracket (← here) .unclosedClass
  let isNegated := (← peek?) == some '^'
  if isNegated then
    if (← advance).isNone then faultFrom bracket (← here) .unclosedClass
  let start ← here
  let minus ← leadingMinus bracket (← rest)
  if minus.isEmpty && (← peek?) == some ']' then
    if (← advance).isNone then faultFrom bracket (← here) .unclosedClass
    return { span := ⟨bracket, ← here⟩, isNegated, start,
             parts := [.letter ⟨⟨start, start + 1⟩, ']', false⟩] }
  return { span := ⟨bracket, ← here⟩, isNegated, start, parts := minus.reverse }

/-- The rest of a class up to its closing bracket: the place of the class, whether its complement
is meant, and what is inside. The first argument only bounds the number of steps. -/
def closeClass : List Char → OpenClass → Reader (Span × Bool × ClassNode)
  | [], o => throw o.unclosed
  | _ :: fuel, o => do
    skipLoose
    match ← peek? with
    | none => throw o.unclosed
    | some ']' =>
      skip
      return (⟨o.span.start, ← here⟩, o.isNegated, o.inside)
    | some '[' =>
      match ← namedClass? with
      | some part => closeClass fuel (o.push part)
      | none =>
        let (span, isNegated, inside) ← closeClass fuel (← openClass)
        closeClass fuel (o.push (.brackets span isNegated inside))
    | some c =>
      match operation? (← rest) with
      | some op =>
        moveTo ((← rest).drop 2)
        closeClass fuel (o.operate op (← here))
      | none => closeClass fuel (o.push (← classItem o.unclosed c))

/-- A class in brackets. -/
def brackets : Reader Node := do
  let o ← openClass
  let (span, isNegated, inside) ← closeClass (← rest) o
  return .brackets span isNegated inside

end AttributeTables.Pattern
