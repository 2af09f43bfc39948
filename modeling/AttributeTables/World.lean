import AttributeTables.Host

/-!
# A world in memory

A host whose files are a tree, and whose outputs are texts. Operations on it are functions from one
world to the next.
-/

namespace AttributeTables

/-- A tree of files with a working directory, and everything that was printed and reported. -/
structure World where
  files : Files.Tree := {}
  working : Files.Location := []
  /-- The most bytes that a file can have, if there is a limit. -/
  maxSize : Option Nat := none
  /-- What the standard output answers, if nothing can be printed to it. -/
  outputFault : Option Files.Fault := none
  filter : Log.Filter := { fallback := none }
  records : List Log.Record := []
  output : String := ""
  errors : String := ""

namespace World

/-- The path of the working directory. -/
def workingPath (w : World) : Path := ⟨"/" ++ "/".intercalate w.working⟩

/-- The path of a temporary file in a directory, from the root. -/
def temporaryPath (w : World) (directory : Path) (name : String) : Path :=
  (w.workingPath.join directory).join ⟨name⟩

/-- A file can have the contents. -/
def fits (w : World) (contents : String) : Bool :=
  match w.maxSize with
  | some size => contents.utf8ByteSize ≤ size
  | none => true

/-- Where a temporary file in a directory will be. The system is given its path from the root. -/
def locateTemporary (w : World) (directory : Path) : Except Files.Fault Files.Location := do
  Files.Tree.checkPath (w.temporaryPath directory (Files.Tree.temporaryName 0)) .zeroInPath
  w.files.locateTemporary [] (w.workingPath.join directory)

/-- Creates an empty temporary file. -/
def create (w : World) (directory : Path) : Except (Files.Fault × Path) Temporary × World :=
  match w.locateTemporary directory with
  | .error fault =>
    (.error (fault, w.temporaryPath directory (Files.Tree.temporaryName 0)), w)
  | .ok location =>
    let name := location.getLast?.getD ""
    (.ok ⟨w.temporaryPath directory name, location⟩,
      { w with files := w.files.insert location (.file ByteArray.empty) })

/-- Writes the contents of a temporary file. -/
def write (w : World) (t : Temporary) (contents : String) : Except Files.Fault Unit × World :=
  if w.fits contents then
    (.ok (), { w with files := w.files.insert t.location (.file contents.toByteArray) })
  else (.error .tooLarge, w)

/-- Moves a temporary file. -/
def move (w : World) (t : Temporary) (path : Path) : Except Files.Fault Unit × World :=
  match w.files.locateTarget w.working path with
  | .error fault => (.error fault, w)
  | .ok target => (.ok (), { w with files := w.files.move t.location target })

/-- Removes a temporary file. -/
def remove (w : World) (t : Temporary) : World := { w with files := w.files.erase t.location }

/-- Prints to the standard output. -/
def print (w : World) (text : String) : Except Files.Fault Unit × World :=
  match w.outputFault with
  | some fault => (.error fault, w)
  | none => (.ok (), { w with output := w.output ++ text })

/-- Keeps a record, and prints it if the filter admits it. -/
def report (w : World) (r : Log.Record) : World :=
  { w with
    records := w.records ++ [r]
    errors := if w.filter.admits r then w.errors ++ r.line else w.errors }

end World

instance : Host (StateM World) where
  read path := fun w => (w.files.read w.working path, w)
  create directory := fun w => w.create directory
  write t contents := fun w => w.write t contents
  move t path := fun w => w.move t path
  remove t := fun w => ((), w.remove t)
  print text := fun w => w.print text
  printError text := fun w => ((), { w with errors := w.errors ++ text })
  setFilter filter := fun w => ((), { w with filter })
  report r := fun w => ((), w.report r)

end AttributeTables
