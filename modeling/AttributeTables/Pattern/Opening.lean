import AttributeTables.Pattern.Reader
import AttributeTables.Text.Printable

/-!
# Openings of groups

What stands between an opening parenthesis and the inside of its group: a name, or flags. Flags
without an inside hold for the rest of the group around them.
-/

namespace AttributeTables.Pattern

open Reader

/-- What a parenthesis opens. -/
inductive Opening where
  | flags (span : Span) (flags : Flags)
  /-- A group. The place is that of the parenthesis. -/
  | group (span : Span) (isCaptured : Bool) (flags : Flags)

/-! ## Flags -/

/-- The flag with the given letter. -/
def flag? : Char → Option Flag
  | 'i' => some .ignoreCase
  | 'm' => some .multiline
  | 's' => some .dotAll
  | 'U' => some .swapGreed
  | 'u' => some .unicode
  | 'R' => some .crlf
  | 'x' => some .loose
  | _ => none

/-- A flag, or none for a minus sign. -/
def flagItem (c : Char) : Reader (Option Flag) := do
  if c == '-' then return none
  else
    match flag? c with
    | some f => return some f
    | none => faultAt .unknownFlag

/-- Flags and minus signs up to a colon or the end of the group, after those that were read, the
last one first. The first argument only bounds their number. -/
def flagItems : List Char → List (Option Flag × Span) → Reader (List (Option Flag × Span))
  | [], items => return items
  | _ :: fuel, items => do
    match ← peek? with
    | none => faultBefore .unfinishedFlags
    | some c =>
      if c == ':' || c == ')' then return items
      let span : Span := ⟨← here, (← here) + 1⟩
      let item ← flagItem c
      match items.lookup item with
      | some first => throw ⟨span, if item.isNone then .repeatedMinus first else .repeatedFlag first⟩
      | none =>
        skip
        flagItems fuel ((item, span) :: items)

/-- The values of the flags: those after a minus sign are false. -/
def flagValues (value : Bool) : List (Option Flag) → Flags
  | [] => []
  | none :: items => flagValues false items
  | some f :: items => (f, value) :: flagValues value items

/-- Flags up to a colon or the end of the group. -/
def flags : Reader Flags := do
  let items ← flagItems (' ' :: (← rest)) []
  match items.head? with
  | some (none, span) => throw ⟨span, .danglingMinus⟩
  | _ => return flagValues true (items.reverse.map (·.1))

/-! ## Names -/

/-- The character is a letter. All visible characters outside ASCII count as letters. -/
def isLetter (c : Char) : Bool :=
  c.isAlpha || (128 ≤ c.toNat && Text.isPrintable c && !Text.isExtending c)

/-- The character can be in a name, or can begin one. -/
def isNameChar (isFirst : Bool) (c : Char) : Bool :=
  c == '_' || isLetter c || (!isFirst && (c.isDigit || c == '.' || c == '[' || c == ']'))

/-- The rest of a name. The first argument only bounds its length. -/
def nameChars : List Char → Bool → Reader (List Char)
  | [], _ => return []
  | _ :: fuel, isFirst => do
    match ← peek? with
    | none => faultBefore .unclosedName
    | some c =>
      if c == '>' then return []
      if !isNameChar isFirst c then faultAt .badNameCharacter
      skip
      return c :: (← nameChars fuel false)

/-- The name of a group with the sign after it. No two groups have one name. -/
def groupName : Reader Unit := do
  let start ← here
  let name ← nameChars (' ' :: (← rest)) true
  let stop ← here
  skip
  if name.isEmpty then faultFrom start start .emptyName
  match (← get).names.lookup name with
  | some first => faultFrom start stop (.repeatedName first)
  | none => modify fun cursor => { cursor with names := (name, ⟨start, stop⟩) :: cursor.names }

/-! ## Openings -/

/-- An opening after its question mark. -/
def flagOpening (start question : Nat) : Reader Opening := do
  let span : Span := ⟨start, start + 1⟩
  if (← peek?).isNone then throw ⟨span, .unclosedGroup⟩
  let flags ← flags
  let isGroup := (← peek?) == some ':'
  skip
  if isGroup then return .group span false flags
  if flags.isEmpty then faultFrom question question .nothingRepeated
  return .flags ⟨start, ← here⟩ flags

/-- An opening. -/
def opening : Reader Opening := do
  let start ← here
  skip
  skipLoose
  if ← accept [['?', '='], ['?', '!'], ['?', '<', '='], ['?', '<', '!']] then
    faultFrom start (← here) .lookAround
  let question ← here
  let isNamed ← accept [['?', 'P', '<'], ['?', '<']]
  if isNamed then
    groupName
    return .group ⟨start, start + 1⟩ true []
  if ← accept [['?']] then flagOpening start question
  else return .group ⟨start, start + 1⟩ true []

end AttributeTables.Pattern
