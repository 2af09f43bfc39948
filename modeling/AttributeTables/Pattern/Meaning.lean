import AttributeTables.Pattern.Expression
import AttributeTables.Pattern.Fault

/-!
# The meaning of patterns

Classes of letters, digits and the like are known for ASCII only, and so are small and capital
letters. A pattern that needs more is at fault, and so is one that could fit a part of a character.
-/

namespace AttributeTables.Pattern

/-- How the parts of a pattern are meant. -/
structure Modes where
  ignoresCase : Bool := false
  isMultiline : Bool := false
  dotIsAny : Bool := false
  /-- Everything is meant for all characters, not for ASCII only. -/
  isUnicode : Bool := true
  /-- Lines end at carriage returns too. -/
  atReturn : Bool := false
  deriving DecidableEq

namespace Modes

/-- The modes with the value of one flag. The others have done their work already. -/
def apply (m : Modes) : Flag × Bool → Modes
  | (.ignoreCase, value) => { m with ignoresCase := value }
  | (.multiline, value) => { m with isMultiline := value }
  | (.dotAll, value) => { m with dotIsAny := value }
  | (.unicode, value) => { m with isUnicode := value }
  | (.crlf, value) => { m with atReturn := value }
  | (.swapGreed, _) | (.loose, _) => m

/-- The modes with the values of flags. -/
def applyAll (m : Modes) (flags : Flags) : Modes := flags.foldl apply m

end Modes

/-- What a part means, or its fault. -/
abbrev Meant := Except Fault

/-! ## Classes -/

/-- The set without regard to case, if that is asked for. -/
def folded (m : Modes) (span : Span) (s : CharSet) : Meant CharSet :=
  if m.ignoresCase && !s.ranges.isEmpty then
    if m.isUnicode then .error ⟨span, .noCaseTable⟩ else .ok s.withBothCases
  else .ok s

/-- The complement of the set, if that is asked for. Outside ASCII a byte is only a part of a
character. -/
def negated (m : Modes) (span : Span) (isNegated : Bool) (s : CharSet) : Meant CharSet :=
  if isNegated then
    if m.isUnicode then .ok s.complement else .error ⟨span, .brokenCharacters⟩
  else .ok s

/-- A byte stands for a character in ASCII only. -/
def Letter.check (l : Letter) (m : Modes) : Meant Unit :=
  if !m.isUnicode && l.isByte && 128 ≤ l.char.toNat then .error ⟨l.span, .brokenCharacters⟩
  else .ok ()

/-- The character in a class. -/
def Letter.inClass (l : Letter) (m : Modes) : Meant Char := do
  l.check m
  if !m.isUnicode && 128 ≤ l.char.toNat then .error ⟨l.span, .beyondAscii⟩ else .ok l.char

/-- The name of a property as it is compared: in small letters, without a leading `is` and without
signs between words. -/
def propertyName (name : List Char) : List Char :=
  let small := name.map Char.toLower
  let bare := if small.take 2 == ['i', 's'] then small.drop 2 else small
  bare.filter fun c => c.toNat < 128 && c != ' ' && c != '_' && c != '-'

/-- The names that can also be values of a property. -/
def valueNames : List String := ["cf", "lc", "sc"]

/-- Why there is no class of the characters with a property. -/
def propertyCause (name : List Char) (hasValue : Bool) : Cause :=
  if !hasValue && valueNames.contains (String.ofList (propertyName name)) then
    .unknownPropertyValue
  else .unknownProperty

/-- The characters of a named class. -/
def NamedClass.meaning (m : Modes) (c : NamedClass) : Meant CharSet :=
  match c.name with
  | .shorthand s =>
    if m.isUnicode then .error ⟨c.span, .noClassTable⟩
    else negated m c.span c.isNegated ⟨s.asciiClass.ranges⟩
  | .ascii a => do negated m c.span c.isNegated (← folded m c.span ⟨a.ranges⟩)
  | .property name hasValue =>
    .error ⟨c.span, if m.isUnicode then propertyCause name hasValue else .beyondAscii⟩

/-- The result of an operation. -/
def SetOperation.apply : SetOperation → CharSet → CharSet → CharSet
  | .intersection, s, t => s.inter t
  | .difference, s, t => s.diff t
  | .symmetricDifference, s, t => s.symmDiff t

/-- The characters of a class in brackets. -/
def ClassNode.meaning (m : Modes) : ClassNode → Meant CharSet
  | .nothing _ => .ok .empty
  | .letter l => do return .singleton (← l.inClass m)
  | .range first last => do
    let a ← first.inClass m
    let b ← last.inClass m
    return ⟨[(a.toNat, b.toNat)]⟩
  | .named c => c.meaning m
  | .brackets span isNegated inside => do
    negated m span isNegated (← folded m span (← inside.meaning m))
  | .union _ parts => among parts
  | .operation op left right => do
    let s ← left.meaning m
    let t ← right.meaning m
    let t ← folded m right.span t
    let s ← folded m left.span s
    return op.apply s t
where
  /-- All of several parts. -/
  among : List ClassNode → Meant CharSet
    | [] => .ok .empty
    | part :: rest => do
      let s ← part.meaning m
      return s.union (← among rest)

/-! ## Patterns -/

/-- The meaning of a look. -/
def Look.anchor (m : Modes) : Look → Anchor
  | .lineStart => if m.isMultiline then .lineStart m.atReturn else .textStart
  | .lineEnd => if m.isMultiline then .lineEnd m.atReturn else .textEnd
  | .textStart => .textStart
  | .textEnd => .textEnd
  | .boundary b => .boundary b !m.isUnicode

/-- The characters that a dot stands for. -/
def dotSet (m : Modes) : CharSet :=
  if m.dotIsAny then .all
  else if m.atReturn then CharSet.complement ⟨[(0xa, 0xa), (0xd, 0xd)]⟩
  else CharSet.complement ⟨[(0xa, 0xa)]⟩

/-- The meaning of an atom. -/
def Atom.meaning (m : Modes) : Atom → Meant Expression
  | .letter l => do
    l.check m
    return .chars (← folded m l.span (.singleton l.char))
  | .dot span => if m.isUnicode then .ok (.chars (dotSet m)) else .error ⟨span, .brokenCharacters⟩
  | .look _ l => .ok (.look (l.anchor m))
  | .named c => do return .chars (← c.meaning m)

/-- The meaning of a part, and the modes after it. -/
def Node.meaning : Node → StateT Modes Meant Expression
  | .nothing _ => return .empty
  | .atom a => do a.meaning (← get)
  | .flags _ values => do
    modify (·.applyAll values)
    return .empty
  | .brackets span isNegated inside => do
    let m ← get
    let s ← inside.meaning m
    return .chars (← negated m span isNegated (← folded m span s))
  | .repeated _ node min max => do return (← node.meaning).repetition min max
  | .group _ isCaptured values inside => do
    let outer ← get
    set (outer.applyAll values)
    let e ← inside.meaning
    set outer
    return if isCaptured then .capture e else e
  | .sequence _ parts => do return .ofParts (← among parts)
  | .choice _ branches => do return .ofBranches (← among branches)
where
  /-- The meanings of several parts, in order. -/
  among : List Node → StateT Modes Meant (List Expression)
    | [] => return []
    | part :: rest => do
      let e ← part.meaning
      return e :: (← among rest)

end AttributeTables.Pattern
