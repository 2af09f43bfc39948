import AttributeTables.Text.Pieces

/-!
# Paths

A path is a text whose pieces are separated by slashes. An empty piece says nothing, and neither
does a single dot unless the path starts with it. Two dots lead one directory up, but only a file
system can say where that is, so they are never resolved here.
-/

namespace AttributeTables

/-- A path, absolute or relative to some directory. -/
structure Path where
  text : String
  deriving DecidableEq

namespace Path

/-- The pieces of the path. -/
def pieces (p : Path) : List String := (Text.pieces '/' p.text.toList).map String.ofList

/-- The path with the given pieces. -/
def ofPieces (pieces : List String) : Path := ⟨"/".intercalate pieces⟩

/-- The path starts at the root. -/
def isAbsolute (p : Path) : Bool := p.text.toList.head? == some '/'

/-! ## Parts -/

/-- Drops the pieces that say nothing from the end. The argument is in reverse order. -/
def trimReversed : List String → List String
  | [] => []
  | [piece] => if piece == "" then [] else [piece]
  | piece :: rest => if piece == "" || piece == "." then trimReversed rest else piece :: rest

/-- The pieces without the last one, and the last one, if the path has one. -/
def splitLast? (p : Path) : Option (List String × String) :=
  match trimReversed p.pieces.reverse with
  | [] => none
  | last :: before => some (before.reverse, last)

/-- The path without its last piece; a root and an empty path have none. -/
def parent? (p : Path) : Option Path :=
  p.splitLast?.map fun (before, _) =>
    let front := ofPieces (trimReversed before.reverse).reverse
    if p.isAbsolute && front.text == "" then ⟨"/"⟩ else front

/-- The last piece, unless it is made of dots that stand for a directory. -/
def fileName? (p : Path) : Option String :=
  (p.splitLast?.map (·.2)).filter fun name => name != "." && name != ".."

/-- The other path as seen from this one. -/
def join (base p : Path) : Path :=
  if p.isAbsolute then p
  else if base.text == "" || base.text.toList.getLast? == some '/' then ⟨base.text ++ p.text⟩
  else ⟨base.text ++ "/" ++ p.text⟩

/-- The directory that holds the path's last piece. -/
def directory (p : Path) : Path :=
  match p.parent? with
  | some parent => if parent.text == "" then ⟨"."⟩ else parent
  | none => ⟨"."⟩

end Path

end AttributeTables
