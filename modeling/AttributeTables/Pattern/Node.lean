import AttributeTables.Text.Span

/-!
# Patterns as they are written

A pattern is a regular expression. Its parts are kept with their places, so that what is wrong with
them can be shown there.
-/

namespace AttributeTables.Pattern

/-! ## Characters and classes -/

/-- A character that stands for itself, as it is or by an escape. -/
structure Letter where
  span : Span
  char : Char
  /-- It is written by a number of two digits, which can also be meant as a byte. -/
  isByte : Bool := false
  deriving DecidableEq

/-- Classes named by one letter. -/
inductive Shorthand where
  | digit
  | space
  | word
  deriving DecidableEq

/-- Classes of ASCII characters. -/
inductive AsciiClass where
  | alnum
  | alpha
  | ascii
  | blank
  | cntrl
  | digit
  | graph
  | lower
  | print
  | punct
  | space
  | upper
  | word
  | xdigit
  deriving DecidableEq

namespace AsciiClass

/-- The names of the classes. -/
def names : List (String × AsciiClass) :=
  [("alnum", .alnum), ("alpha", .alpha), ("ascii", .ascii), ("blank", .blank), ("cntrl", .cntrl),
    ("digit", .digit), ("graph", .graph), ("lower", .lower), ("print", .print),
    ("punct", .punct), ("space", .space), ("upper", .upper), ("word", .word),
    ("xdigit", .xdigit)]

/-- The characters of the class, as inclusive ranges of code points in increasing order. -/
def ranges : AsciiClass → List (Nat × Nat)
  | .alnum => [(0x30, 0x39), (0x41, 0x5a), (0x61, 0x7a)]
  | .alpha => [(0x41, 0x5a), (0x61, 0x7a)]
  | .ascii => [(0, 0x7f)]
  | .blank => [(0x9, 0x9), (0x20, 0x20)]
  | .cntrl => [(0, 0x1f), (0x7f, 0x7f)]
  | .digit => [(0x30, 0x39)]
  | .graph => [(0x21, 0x7e)]
  | .lower => [(0x61, 0x7a)]
  | .print => [(0x20, 0x7e)]
  | .punct => [(0x21, 0x2f), (0x3a, 0x40), (0x5b, 0x60), (0x7b, 0x7e)]
  | .space => [(0x9, 0xd), (0x20, 0x20)]
  | .upper => [(0x41, 0x5a)]
  | .word => [(0x30, 0x39), (0x41, 0x5a), (0x5f, 0x5f), (0x61, 0x7a)]
  | .xdigit => [(0x30, 0x39), (0x41, 0x46), (0x61, 0x66)]

end AsciiClass

/-- The class of ASCII characters that the letter stands for. -/
def Shorthand.asciiClass : Shorthand → AsciiClass
  | .digit => .digit
  | .space => .space
  | .word => .word

/-- The name of a class. -/
inductive ClassName where
  | shorthand (s : Shorthand)
  | ascii (c : AsciiClass)
  /-- The characters with a property, or with a value of one. -/
  | property (name : List Char) (hasValue : Bool)
  deriving DecidableEq

/-- A class that is named, or its complement. -/
structure NamedClass where
  span : Span
  name : ClassName
  isNegated : Bool := false
  deriving DecidableEq

/-- What is done with two classes. -/
inductive SetOperation where
  | intersection
  | difference
  | symmetricDifference
  deriving DecidableEq

/-- A class in brackets, and its parts. -/
inductive ClassNode where
  | nothing (span : Span)
  | letter (l : Letter)
  | range (first last : Letter)
  | named (c : NamedClass)
  | brackets (span : Span) (isNegated : Bool) (inside : ClassNode)
  | union (span : Span) (parts : List ClassNode)
  | operation (op : SetOperation) (left right : ClassNode)

/-- The place of a part of a class. -/
def ClassNode.span : ClassNode → Span
  | .nothing span => span
  | .letter l => l.span
  | .range first last => ⟨first.span.start, last.span.stop⟩
  | .named c => c.span
  | .brackets span _ _ => span
  | .union span _ => span
  | .operation _ left right => ⟨left.span.start, right.span.stop⟩

/-- The class with the given parts. -/
def ClassNode.ofParts (start : Nat) : List ClassNode → ClassNode
  | [] => .nothing ⟨start, start⟩
  | [part] => part
  | first :: rest => .union ⟨first.span.start, (rest.getLast?.getD first).span.stop⟩ (first :: rest)

/-! ## Looks -/

/-- What a place is to the word beside it. The last two say only what is on one side. -/
inductive Boundary where
  | edge
  | interior
  | opening
  | closing
  | halfOpening
  | halfClosing
  deriving DecidableEq

/-- A condition on a place in a text. -/
inductive Look where
  | lineStart
  | lineEnd
  | textStart
  | textEnd
  | boundary (b : Boundary)
  deriving DecidableEq

/-! ## Patterns -/

/-- How parts of a pattern are meant. -/
inductive Flag where
  | ignoreCase
  | multiline
  | dotAll
  | swapGreed
  | unicode
  | crlf
  | loose
  deriving DecidableEq

/-- Flags with the values that they get. -/
abbrev Flags := List (Flag × Bool)

/-- The smallest parts of a pattern. -/
inductive Atom where
  | letter (l : Letter)
  | dot (span : Span)
  | look (span : Span) (look : Look)
  | named (c : NamedClass)
  deriving DecidableEq

/-- The place of an atom. -/
def Atom.span : Atom → Span
  | .letter l => l.span
  | .dot span => span
  | .look span _ => span
  | .named c => c.span

/-- A pattern, and its parts. -/
inductive Node where
  | nothing (span : Span)
  | atom (a : Atom)
  /-- Flags for the rest of the group. -/
  | flags (span : Span) (flags : Flags)
  | brackets (span : Span) (isNegated : Bool) (inside : ClassNode)
  | repeated (span : Span) (node : Node) (min : Nat) (max : Option Nat)
  | group (span : Span) (isCaptured : Bool) (flags : Flags) (inside : Node)
  | sequence (span : Span) (parts : List Node)
  | choice (span : Span) (branches : List Node)

namespace Node

/-- The place of a part. -/
def span : Node → Span
  | .atom a => a.span
  | .nothing span | .flags span _ | .brackets span _ _ | .repeated span _ _ _ | .group span _ _ _
  | .sequence span _ | .choice span _ => span

/-- The parts one after the other. -/
def ofParts (span : Span) : List Node → Node
  | [] => .nothing span
  | [part] => part
  | parts => .sequence span parts

/-- A choice between the branches. -/
def ofBranches (span : Span) : List Node → Node
  | [branch] => branch
  | branches => .choice span branches

/-- The part can be repeated. -/
def isRepeatable : Node → Bool
  | .nothing _ | .flags _ _ => false
  | _ => true

end Node

/-! ## Depth -/

/-- A class inside so many others that this is too deep. -/
def ClassNode.tooDeep? (limit : Nat) : ClassNode → Nat → Option Span
  | .nothing _, _ | .letter _, _ | .range _ _, _ | .named _, _ => none
  | .brackets span _ inside, depth =>
    if limit ≤ depth then some span else inside.tooDeep? limit (depth + 1)
  | .union span parts, depth => if limit ≤ depth then some span else among parts (depth + 1)
  | .operation _ left right, depth =>
    if limit ≤ depth then some ⟨left.span.start, right.span.stop⟩
    else (left.tooDeep? limit (depth + 1)).or (right.tooDeep? limit (depth + 1))
where
  /-- The first one among several. -/
  among : List ClassNode → Nat → Option Span
    | [], _ => none
    | node :: rest, depth => (node.tooDeep? limit depth).or (among rest depth)

/-- A part inside so many others that this is too deep. -/
def Node.tooDeep? (limit : Nat) : Node → Nat → Option Span
  | .nothing _, _ | .atom _, _ | .flags _ _, _ => none
  | .brackets span _ inside, depth =>
    if limit ≤ depth then some span else inside.tooDeep? limit (depth + 1)
  | .repeated span node _ _, depth =>
    if limit ≤ depth then some span else node.tooDeep? limit (depth + 1)
  | .group span _ _ inside, depth =>
    if limit ≤ depth then some span else inside.tooDeep? limit (depth + 1)
  | .sequence span parts, depth => if limit ≤ depth then some span else among parts (depth + 1)
  | .choice span branches, depth =>
    if limit ≤ depth then some span else among branches (depth + 1)
where
  /-- The first one among several. -/
  among : List Node → Nat → Option Span
    | [], _ => none
    | node :: rest, depth => (node.tooDeep? limit depth).or (among rest depth)

end AttributeTables.Pattern
