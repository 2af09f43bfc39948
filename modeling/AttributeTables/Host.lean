import AttributeTables.Files.Tree
import AttributeTables.Log.Filter

/-!
# Hosts

What the program asks of the system it runs on. Files are replaced by moving a temporary file in
their place, so that nobody ever sees half of a file.
-/

namespace AttributeTables

/-- A temporary file. -/
structure Temporary where
  path : Path
  /-- Where it is from the root. -/
  location : Files.Location
  deriving DecidableEq

/-- The operations of a host. -/
class Host (m : Type → Type) where
  /-- The contents of a file. -/
  read : Path → m (Except Files.Fault ByteArray)
  /-- Creates an empty temporary file in a directory. A fault comes with the path of the file. -/
  create : Path → m (Except (Files.Fault × Path) Temporary)
  /-- Writes the contents of a temporary file. -/
  write : Temporary → String → m (Except Files.Fault Unit)
  /-- Moves a temporary file to a path, in place of the file that is there. After a fault the
  temporary file is still there. -/
  move : Temporary → Path → m (Except Files.Fault Unit)
  /-- Removes a temporary file. -/
  remove : Temporary → m Unit
  /-- Prints to the standard output. -/
  print : String → m (Except Files.Fault Unit)
  /-- Prints to the standard error output. -/
  printError : String → m Unit
  /-- Decides which records are printed from now on. -/
  setFilter : Log.Filter → m Unit
  /-- Prints a record to the standard error output, if the filter admits it. -/
  report : Log.Record → m Unit

/-- Operations that may fail run on the host below them. -/
instance {ε : Type} {m : Type → Type} [Monad m] [Host m] : Host (ExceptT ε m) where
  read path := ExceptT.lift (Host.read path)
  create directory := ExceptT.lift (Host.create directory)
  write t contents := ExceptT.lift (Host.write t contents)
  move t path := ExceptT.lift (Host.move t path)
  remove t := ExceptT.lift (Host.remove t)
  print text := ExceptT.lift (Host.print text)
  printError text := ExceptT.lift (Host.printError text)
  setFilter filter := ExceptT.lift (Host.setFilter filter)
  report r := ExceptT.lift (Host.report r)

namespace Host

variable {m : Type → Type} [Monad m] [Host m]

/-- The contents of a file that holds a text. -/
def readText (p : Path) : m (Except Files.Fault String) := do
  match ← Host.read p with
  | .error fault => return .error fault
  | .ok contents =>
    match String.fromUTF8? contents with
    | some text => return .ok text
    | none => return .error .notText

/-- Prints texts to the standard error output, in order. -/
def printErrors : List String → m Unit
  | [] => return ()
  | text :: rest => do
    Host.printError text
    printErrors rest

/-- Reports records in order. -/
def reportAll : List Log.Record → m Unit
  | [] => return ()
  | r :: rest => do
    Host.report r
    reportAll rest

end Host

end AttributeTables
