import AttributeTables.Toml.Assembly
import AttributeTables.Toml.Bare
import AttributeTables.Toml.Quotes

/-!
# Reading TOML

A reader takes characters from the front of a text and keeps their place. A text that is no TOML
has no tree; why is not told.
-/

namespace AttributeTables.Toml

/-- A place in a text: what is left of it, and how many characters came before. The flag says that
every number so far is usable. -/
structure Cursor where
  position : Nat
  rest : List Char
  allUsable : Bool := true

/-- A reader fails, or reads something and moves the cursor. -/
abbrev Reader := StateT Cursor Option

namespace Reader

/-- The place. -/
def here : Reader Nat := return (← get).position

/-- What is left. -/
def rest : Reader (List Char) := return (← get).rest

/-- The next character. -/
def peek? : Reader (Option Char) := return (← get).rest.head?

/-- Moves over characters, to the text after them. -/
def moveTo (count : Nat) (rest : List Char) : Reader Unit :=
  modify fun cursor => { cursor with position := cursor.position + count, rest }

/-- Takes the longest run of characters of a class. -/
def takeWhile (p : Char → Bool) : Reader (List Char) := do
  let (run, rest) := (← rest).span p
  moveTo run.length rest
  return run

/-- Moves over a text if it comes next. -/
def accept (s : List Char) : Reader Bool := do
  let cs ← rest
  if s.isPrefixOf cs then
    moveTo s.length (cs.drop s.length)
    return true
  else return false

/-- Moves over a text that has to come next. -/
def expect (s : List Char) : Reader Unit := do
  unless ← accept s do failure

/-- What was read, with its place. -/
def located (r : Reader α) : Reader (Span × α) := do
  let start ← here
  let a ← r
  return (⟨start, ← here⟩, a)

end Reader

open Reader

/-! ## White space and comments -/

/-- Moves over spaces and tabs. -/
def skipBlanks : Reader Unit := do
  let _ ← takeWhile fun c => c == ' ' || c == '\t'

/-- Counts blanks, newlines and comments at the front; `comment` says that a comment has begun.
A carriage return comes only before a newline. -/
def fillerLength (comment : Bool) : List Char → Option (Nat × List Char)
  | [] => some (0, [])
  | c :: cs =>
    let next (comment : Bool) := (fillerLength comment cs).map fun (n, rest) => (n + 1, rest)
    if c == '\n' then next false
    else if c == '\r' then if carriageOk cs then next false else none
    else if comment then if isPlain c then next true else none
    else if c == ' ' || c == '\t' then next false
    else if c == '#' then next true
    else some (0, c :: cs)

/-- Moves over blanks, newlines and comments. -/
def skipFiller : Reader Unit := do
  let (count, rest) ← (fillerLength false (← rest) : Option _)
  moveTo count rest

/-- Moves to the end of a line on which nothing but a comment is left. -/
def endLine : Reader Unit := do
  skipBlanks
  match ← peek? with
  | none => return
  | some '\n' | some '\r' | some '#' => skipFiller
  | some _ => failure

/-! ## Keys -/

/-- A character of a key without quotes. -/
def isKeyChar (c : Char) : Bool := c.isAlphanum || c == '_' || c == '-'

/-- A quoted text. Keys do not go over several lines. -/
def quoted (blocks : Bool) : Reader String := do
  let q ← (quotedText? (← rest) blocks : Option _)
  moveTo q.length q.rest
  return q.text

/-- One part of a key. -/
def simpleKey : Reader Key := do
  let (span, text) ← located do
    match ← peek? with
    | some '"' | some '\'' => quoted false
    | _ =>
      let run ← takeWhile isKeyChar
      if run.isEmpty then failure
      return String.ofList run
  return ⟨text, span⟩

/-- The parts of a dotted key. The first argument only bounds their number. -/
def dottedParts : List Char → Reader (List Key)
  | [] => failure
  | _ :: fuel => do
    let key ← simpleKey
    skipBlanks
    if ← accept ['.'] then
      skipBlanks
      return key :: (← dottedParts fuel)
    else return [key]

/-- A dotted key has at most so many parts. -/
def maxParts : Nat := 80

/-- A dotted key, and the blanks after it. -/
def dottedKey : Reader (List Key) := do
  let path ← dottedParts (← rest)
  if maxParts < path.length then failure
  return path

/-! ## Values -/

/-- A scalar. -/
def scalar : Reader Scalar := do
  match ← peek? with
  | some '"' | some '\'' => return .text (← quoted true)
  | _ =>
    let (text, rest) := splitScalar (← rest)
    let value ← (scalar? text : Option _)
    moveTo text.length rest
    modify fun cursor => { cursor with allUsable := cursor.allUsable && value.isUsable }
    return value

/-- The items of a list up to the closing bracket, with commas between them and perhaps after the
last one. The first argument after the item's reader only bounds their number. -/
def items (close : Char) (item : Reader α) : List Char → Reader (List α)
  | [] => failure
  | _ :: fuel => do
    skipFiller
    if ← accept [close] then return []
    let a ← item
    skipFiller
    if ← accept [close] then return [a]
    expect [',']
    return a :: (← items close item fuel)

/-- A key with its value. `gap` moves over what may stand around the sign between them. -/
def keyValue (gap : Reader Unit) (value : Reader Tree) : Reader (List Key × Tree) := do
  let path ← dottedKey
  gap
  expect ['=']
  gap
  return (path, ← value)

/-- A value whose arrays and tables in braces are at most so deep inside one another. -/
def value : Nat → Reader Tree
  | 0 => do
    let (span, s) ← located scalar
    return .leaf span s
  | depth + 1 => do
    match ← peek? with
    | some '[' =>
      let (span, trees) ← located do
        expect ['[']
        items ']' (value depth) (← rest)
      return .array span .inline trees
    | some '\x7b' =>
      let (span, pairs) ← located do
        expect ['\x7b']
        items '\x7d' (keyValue skipFiller (value depth)) (← rest)
      let entries ← (putAll pairs [] : Option _)
      return .table span .inline entries
    | _ =>
      let (span, s) ← located scalar
      return .leaf span s

/-- How deep values may be. -/
def depthLimit : Nat := 80

/-! ## Documents -/

/-- A header. -/
def header : Reader Header := do
  let (span, path, isRow) ← located do
    expect ['[']
    let isRow ← accept ['[']
    skipBlanks
    let path ← dottedKey
    expect (if isRow then [']', ']'] else [']'])
    return (path, isRow)
  return ⟨path, span, isRow⟩

/-- A statement without the end of its line. -/
def statementBody : Reader Statement := do
  match ← peek? with
  | some '[' => return .header (← header)
  | _ =>
    let (path, tree) ← keyValue skipBlanks (value depthLimit)
    return .entry path tree

/-- A statement and the end of its line. -/
def statement : Reader Statement := do
  let s ← statementBody
  endLine
  return s

/-- The statements up to the end. The argument only bounds their number. -/
def statements : List Char → Reader (List Statement)
  | [] => failure
  | _ :: fuel => do
    skipFiller
    match ← peek? with
    | none => return []
    | some _ =>
      let s ← statement
      return s :: (← statements fuel)

/-- A document that was read. -/
structure Document where
  tree : Tree
  /-- Every number in it is usable. -/
  allUsable : Bool
  deriving DecidableEq

/-- The document that the text denotes. A byte order mark at its start is skipped. -/
def document? (source : String) : Option Document := do
  let cs := source.toList
  let start : Cursor := match cs with
    | '\ufeff' :: rest => { position := 1, rest }
    | rest => { position := 0, rest }
  let (statements, stop) ← (statements ('\n' :: cs)).run start
  let entries ← assemble statements
  return ⟨.table ⟨0, cs.length⟩ .header entries, stop.allUsable⟩

end AttributeTables.Toml
