import AttributeTables.Toml.Tree

/-!
# Assembly of documents

The statements of a document add to one tree. A table is defined once: by a header, in braces, or
key by key. These functions are `none` where a statement would define something again.
-/

namespace AttributeTables.Toml

/-- Replaces the entry with the given key, or adds one at the end. -/
def alter (name : String) (f : Option (Key × Tree) → Option (Key × Tree)) :
    Entries → Option Entries
  | [] => (f none).map ([·])
  | entry :: rest =>
    if entry.1.text == name then (f (some entry)).map (· :: rest)
    else (alter name f rest).map (entry :: ·)

/-- Changes the last row of an array of tables. -/
def alterLast (f : Entries → Option Entries) : List Tree → Option (List Tree)
  | [] => none
  | [.table span origin entries] => (f entries).map fun entries => [.table span origin entries]
  | [_] => none
  | item :: rest => (alterLast f rest).map (item :: ·)

/-! ## Keys with values -/

/-- What a dotted key does to the entry of one of its parts but the last. `last` says that only
the last part follows, so that the value goes right into the entry's table. That table must belong
to dotted keys; on the way to it no table with a header of its own is entered. -/
def enterDotted (key : Key) (last : Bool) (inner : Entries → Option Entries) :
    Option (Key × Tree) → Option (Key × Tree)
  | none => (inner []).map fun entries => (key, .table key.span .dotted entries)
  | some (k, .table span origin entries) =>
    if origin == .dotted || (origin == .implied && !last) then
      (inner entries).map fun entries => (k, .table span origin entries)
    else none
  | some (k, .array span .headers items) =>
    if last then none
    else (alterLast inner items).map fun items => (k, .array span .headers items)
  | some _ => none

/-- Adds a value under a dotted key. -/
def put (value : Tree) : List Key → Entries → Option Entries
  | [], _ => none
  | [key], entries =>
    alter key.text (fun old => if old.isNone then some (key, value) else none) entries
  | key :: path, entries =>
    alter key.text (enterDotted key (path.length == 1) (put value path)) entries

/-- Adds values under dotted keys, in order. -/
def putAll : List (List Key × Tree) → Entries → Option Entries
  | [], entries => some entries
  | (path, value) :: rest, entries => (put value path entries).bind (putAll rest)

/-! ## Headers -/

/-- The header of a table. -/
structure Header where
  path : List Key
  span : Span
  /-- The header adds a row to an array of tables. -/
  isRow : Bool

/-- What a header does to the entry of one of its parts but the last. -/
def enterHeader (key : Key) (inner : Entries → Option Entries) :
    Option (Key × Tree) → Option (Key × Tree)
  | none => (inner []).map fun entries => (key, .table key.span .implied entries)
  | some (k, .table span origin entries) =>
    if origin == .inline then none
    else (inner entries).map fun entries => (k, .table span origin entries)
  | some (k, .array span .headers items) =>
    (alterLast inner items).map fun items => (k, .array span .headers items)
  | some _ => none

/-- What a header does to the entry of its last part: it opens a table, which may have been implied
before, or adds a row. -/
def openTable (header : Header) (key : Key) (body : Entries → Option Entries) :
    Option (Key × Tree) → Option (Key × Tree)
  | none =>
    (body []).map fun entries =>
      let table := Tree.table header.span .header entries
      (key, if header.isRow then .array header.span .headers [table] else table)
  | some (_, .table _ .implied entries) =>
    if header.isRow then none
    else (body entries).map fun entries => (key, .table header.span .header entries)
  | some (k, .array span .headers items) =>
    if header.isRow then
      (body []).map fun entries =>
        (k, .array span .headers (items ++ [.table header.span .header entries]))
    else none
  | some _ => none

/-- Adds the table under a header. -/
def attach (header : Header) (body : Entries → Option Entries) :
    List Key → Entries → Option Entries
  | [], _ => none
  | [key], entries => alter key.text (openTable header key body) entries
  | key :: path, entries =>
    alter key.text (enterHeader key (attach header body path)) entries

/-! ## Documents -/

/-- A statement of a document. -/
inductive Statement where
  | entry (path : List Key) (value : Tree)
  | header (header : Header)

/-- The entries before the first header, and the sections after it. -/
def sections : List Statement → List (List Key × Tree) × List (Header × List (List Key × Tree))
  | [] => ([], [])
  | .entry path value :: rest =>
    let (front, sections) := sections rest
    ((path, value) :: front, sections)
  | .header header :: rest =>
    let (front, sections) := sections rest
    ([], (header, front) :: sections)

/-- Adds the sections in order. -/
def attachAll : List (Header × List (List Key × Tree)) → Entries → Option Entries
  | [], entries => some entries
  | (header, body) :: rest, entries =>
    (attach header (putAll body) header.path entries).bind (attachAll rest)

/-- The entries of the document. -/
def assemble (statements : List Statement) : Option Entries :=
  let (front, sections) := sections statements
  (putAll front []).bind (attachAll sections)

end AttributeTables.Toml
