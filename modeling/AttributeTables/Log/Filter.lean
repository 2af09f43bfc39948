import AttributeTables.Log
import AttributeTables.Pattern

/-!
# Filters for log records

A filter says which records are printed. It has a level for all senders and others for senders
whose name starts with a given text; the longest such text decides.
-/

namespace AttributeTables.Log

/-- The records up to a level, or none. -/
abbrev Threshold := Option Level

/-- Records of the level pass. -/
def Threshold.admits : Threshold → Level → Bool
  | none, _ => false
  | some limit, level => level.rank ≤ limit.rank

/-- The threshold for a number of requests to print more. -/
def Threshold.ofVerbosity : Nat → Threshold
  | 0 => some .warn
  | 1 => some .info
  | 2 => some .debug
  | _ => some .trace

/-- A filter. -/
structure Filter where
  /-- What holds where no name fits. -/
  fallback : Threshold
  /-- Thresholds for senders by the start of their name, no start twice. -/
  named : List (String × Threshold) := []
  /-- What has to occur in the message. -/
  pattern : Option Pattern := none
  deriving DecidableEq

namespace Filter

/-- The longer one of two named thresholds, the later one of two that are equally long. -/
def longer (a : Option (String × Threshold)) (b : String × Threshold) :
    Option (String × Threshold) :=
  match a with
  | some a => if b.1.utf8ByteSize < a.1.utf8ByteSize then some a else some b
  | none => some b

/-- The threshold for a sender. -/
def thresholdOf (f : Filter) (target : String) : Threshold :=
  let fitting := f.named.filter fun (name, _) => name.toList.isPrefixOf target.toList
  match fitting.foldl longer none with
  | some (_, threshold) => threshold
  | none => f.fallback

/-- The record is printed. -/
def admits (f : Filter) (r : Record) : Bool :=
  (f.thresholdOf r.target).admits r.level && f.pattern.all (·.occursIn r.message)

/-! ## Reading -/

/-- The text without blanks at its ends. -/
def trim (cs : List Char) : List Char :=
  ((cs.dropWhile Text.isBlank).reverse.dropWhile Text.isBlank).reverse

/-- The threshold with the given name, in small or capital letters. -/
def threshold? (cs : List Char) : Option Threshold :=
  let name := String.ofList (cs.map Char.toUpper)
  if name == "OFF" then some none else (Level.all.find? (·.name == name)).map some

/-- A part of a filter's text: a threshold for all senders, for some, or neither. -/
inductive Directive where
  | fallback (t : Threshold)
  | named (name : String) (t : Threshold)
  | invalid (text : String)
  deriving DecidableEq

/-- Reads a directive. A name alone lets everything from the sender pass. -/
def directive (cs : List Char) : Directive :=
  match Text.pieces '=' cs with
  | [word] =>
    match threshold? word with
    | some t => .fallback t
    | none => .named (String.ofList word) (some .trace)
  | [name, level] =>
    let level := trim level
    if level.isEmpty then .named (String.ofList name) (some .trace)
    else
      match threshold? level with
      | some t => .named (String.ofList name) t
      | none => .invalid (String.ofList level)
  | _ => .invalid (String.ofList cs)

/-- The filter with one more directive, which replaces an earlier one for the same senders. -/
def add (f : Filter) : Directive → Filter
  | .fallback t => { f with fallback := t }
  | .named name t => { f with named := f.named.filter (·.1 != name) ++ [(name, t)] }
  | .invalid _ => f

/-- A warning about a directive, if it is invalid. -/
def warning? : Directive → Option String
  | .invalid text => some ("warning: invalid logging spec '" ++ text ++ "', ignoring it")
  | _ => none

/-- The pattern that a text denotes, and a warning if it denotes none. -/
def readPattern (text : String) : Option Pattern × List String :=
  match Pattern.ofText text with
  | .ok pattern => (some pattern, [])
  | .error refusal => (none, ["warning: invalid regex filter - " ++ refusal.message text])

/-- Adds the directives of a text to a filter: directives with commas between them, and perhaps a
slash and a pattern. The second result holds warnings. -/
def extend (f : Filter) (text : String) : Filter × List String :=
  let directives (cs : List Char) : List Directive :=
    (((Text.pieces ',' cs).map trim).filter (!·.isEmpty)).map directive
  match Text.pieces '/' text.toList with
  | [cs] => ((directives cs).foldl add f, (directives cs).filterMap warning?)
  | [cs, pattern] =>
    let (pattern, warnings) := readPattern (String.ofList pattern)
    ({ (directives cs).foldl add f with pattern }, (directives cs).filterMap warning? ++ warnings)
  | _ =>
    (f, ["warning: invalid logging spec '" ++ text ++ "', ignoring it (too many '/'s)"])

end Filter

/-! ## Printing -/

/-- The record as it is printed. Lines of the message after the first are indented. -/
def Record.line (r : Record) : String :=
  let level := r.level.name ++ Text.spaces (5 - r.level.name.length)
  let message := r.message.toList.flatMap fun c =>
    if c == '\n' then c :: List.replicate 4 ' ' else [c]
  "[" ++ level ++ " " ++ r.target ++ "] " ++ String.ofList message ++ "\n"

end AttributeTables.Log
