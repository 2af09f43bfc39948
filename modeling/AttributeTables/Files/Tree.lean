import AttributeTables.Association
import AttributeTables.Files.Fault
import AttributeTables.Files.Path

/-!
# Trees of files

A file system without links: each location from the root down holds a file, a directory or nothing.
What is there may refuse what is to be done with it.
-/

namespace AttributeTables.Files

/-- The names on the way from the root. -/
abbrev Location := List String

/-- What a file answers where it refuses something. The files of the program refuse nothing. -/
structure FileRefusals where
  /-- Its contents may not be read. -/
  read : Option Fault := none
  /-- No other file may take its place. -/
  replace : Option Fault := none
  deriving DecidableEq

/-- What a directory answers where it refuses something. -/
structure DirectoryRefusals where
  /-- No path may lead through it. -/
  search : Option Fault := none
  /-- Files may not come and go in it. -/
  change : Option Fault := none
  deriving DecidableEq

/-- What is at a location. -/
inductive Node where
  | file (contents : ByteArray) (refusals : FileRefusals := {})
  | directory (refusals : DirectoryRefusals := {})

namespace Node

instance : DecidableEq Node
  | .file a r, .file b r' =>
    decidable_of_iff (a.data = b.data ∧ r = r') (by cases a; cases b; simp)
  | .directory r, .directory r' => decidable_of_iff (r = r') (by simp)
  | .file _ _, .directory _ => isFalse nofun
  | .directory _, .file _ _ => isFalse nofun

/-- Why files may not come and go in it. -/
def changeFault? : Node → Option Fault
  | .file _ _ => some .notDirectory
  | .directory refusals => refusals.change

/-- Why a file may not be moved in its place. -/
def replaceFault? : Node → Option Fault
  | .file _ refusals => refusals.replace
  | .directory _ => some .isDirectory

end Node

/-- The nodes of a file system. The root, which is always a directory, is not among them. -/
structure Tree where
  nodes : List (Location × Node) := []
  deriving DecidableEq

namespace Tree

/-- The node at a location. -/
def node? (t : Tree) (l : Location) : Option Node :=
  if l.isEmpty then some .directory else t.nodes.lookup l

/-- The tree without the node at a location. -/
def erase (t : Tree) (l : Location) : Tree := ⟨t.nodes.filter fun (k, _) => k != l⟩

/-- The tree with a node at a location, in place of what was there. -/
def insert (t : Tree) (l : Location) (n : Node) : Tree := ⟨(l, n) :: (t.erase l).nodes⟩

theorem lookup_filter_ne (nodes : List (Location × Node)) (l k : Location) :
    (nodes.filter fun (j, _) => j != l).lookup k = if k = l then none else nodes.lookup k := by
  refine (lookup_filter_key (· != l) nodes k).trans ?_
  by_cases hk : k = l <;> simp [hk]

theorem node?_insert (t : Tree) {l : Location} (hl : l ≠ []) (n : Node) (k : Location) :
    (t.insert l n).node? k = if k = l then some n else t.node? k := by
  by_cases hk : k = []
  · simp [node?, hk, Ne.symm hl]
  · by_cases hkl : k = l
    · simp [node?, insert, hkl, hl]
    · have hb : (k == l) = false := by simp [hkl]
      simp [node?, insert, erase, hk, hkl, List.lookup_cons, hb, lookup_filter_ne]

/-! ## Paths -/

/-- Names are at most so long, in bytes. -/
def maxName : Nat := 255

/-- Paths are shorter than this, in bytes. -/
def maxPath : Nat := 4096

/-- Goes from a directory along one piece of a path. -/
def step (t : Tree) (l : Location) (piece : String) : Except Fault Location :=
  match t.node? l with
  | none => .error .notFound
  | some (.file _ _) => .error .notDirectory
  | some (.directory refusals) =>
    if piece == "" then .ok l
    else do
      Fault.check refusals.search
      if piece == "." then .ok l
      else if piece == ".." then .ok l.dropLast
      else if maxName < piece.utf8ByteSize then .error .nameTooLong
      else .ok (l ++ [piece])

/-- Where a path starts. -/
def start (working : Location) (p : Path) : Location := if p.isAbsolute then [] else working

/-- The system accepts the path as a text. -/
def checkPath (p : Path) (zero : Fault) : Except Fault Unit :=
  if p.text.toList.contains '\x00' then .error zero
  else if p.text == "" then .error .notFound
  else if maxPath ≤ p.text.utf8ByteSize then .error .nameTooLong
  else .ok ()

/-- The location that a path leads to. There may be nothing at it. -/
def locate (t : Tree) (working : Location) (p : Path) : Except Fault Location := do
  checkPath p .zeroInPath
  p.pieces.foldlM t.step (start working p)

/-- The contents of the file under a path. -/
def read (t : Tree) (working : Location) (p : Path) : Except Fault ByteArray := do
  match t.node? (← t.locate working p) with
  | none => .error .notFound
  | some (.directory _) => .error .isDirectory
  | some (.file contents refusals) => do
    Fault.check refusals.read
    return contents

/-! ## Temporary files -/

/-- The name of a temporary file. Larger numbers give longer names. -/
def temporaryName (n : Nat) : String := ".tmp" ++ String.ofList (List.replicate (6 + n) 'X')

/-- The number of characters of the longest name. -/
def longestName (t : Tree) : Nat :=
  t.nodes.foldl (fun n (l, _) => max n ((l.getLast?.map String.length).getD 0)) 0

/-- A name for a temporary file that is free in a directory. -/
def freeName (t : Tree) (directory : Location) : String :=
  if (t.node? (directory ++ [temporaryName 0])).isNone then temporaryName 0
  else temporaryName t.longestName

/-- The location for a temporary file in the directory under a path. -/
def locateTemporary (t : Tree) (working : Location) (directory : Path) :
    Except Fault Location := do
  let l ← t.locate working directory
  match t.node? l with
  | none => .error .notFound
  | some (.file _ _) => .error .notDirectory
  | some (.directory refusals) => do
    Fault.check refusals.search
    Fault.check refusals.change
    return l ++ [t.freeName l]

/-! ## Moves -/

/-- The location that a file can be moved to under a path: its last piece has to be a name, the
directory must let files come and go, and what is there must let a file take its place. -/
def locateTarget (t : Tree) (working : Location) (p : Path) : Except Fault Location := do
  checkPath p .invalidMove
  let pieces := p.pieces.reverse
  let trailing := pieces.head? == some ""
  match pieces.dropWhile (· == "") with
  | [] => .error .busy
  | last :: before =>
    let directory ← before.reverse.foldlM t.step (start working p)
    let l ← t.step directory last
    if last == "." || last == ".." then .error .busy
    else if trailing then .error .notDirectory
    else do
      Fault.check ((t.node? directory).bind Node.changeFault?)
      Fault.check ((t.node? l).bind Node.replaceFault?)
      return l

/-- The tree after a file was moved, in place of what was at its new location. -/
def move (t : Tree) (source target : Location) : Tree :=
  match t.node? source with
  | some n => (t.erase source).insert target n
  | none => t

end Tree

end AttributeTables.Files
