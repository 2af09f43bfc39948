import AttributeTables.Depfile
import AttributeTables.Failure

/-!
# Publication of the generated text
-/

namespace AttributeTables

/-- What became of a text. -/
inductive Published where
  | printed
  | written
  /-- The file held the text already. -/
  | unchanged
  deriving DecidableEq

variable {m : Type → Type} [Monad m] [Host m]

/-- The sender of the records of this module. -/
def publicationTarget : String := "hyattr_tblgen::output"

/-- Writes a text into a temporary file beside the path and moves it there. -/
def replaceFile (path : Path) (contents : String) : Task m Unit := do
  match ← Host.create path.directory with
  | .error (fault, file) => throw (.scratch path.directory fault file)
  | .ok temporary =>
    match ← Host.write temporary contents with
    | .error fault =>
      Host.remove temporary
      throw (.scratch temporary.path fault temporary.path)
    | .ok () =>
      match ← Host.move temporary path with
      | .error fault => throw (.unpublished path fault temporary)
      | .ok () => return ()

/-- The text in a file, if the file is there. -/
def existingText (path : Path) : Task m (Option String) := do
  match ← Host.readText path with
  | .ok text => return some text
  | .error .notFound => return none
  | .error fault => throw (.unreadable path fault)

/-- Replaces a file and says so. -/
def writeFile (path : Path) (contents : String) : Task m Published := do
  replaceFile path contents
  Host.report ⟨.info, publicationTarget, "Wrote '" ++ path.text ++ "' (" ++
    toString contents.utf8ByteSize ++ " bytes)"⟩
  return .written

/-- Publishes a text in a file. -/
def publishFile (path : Path) (contents : String) (mode : WriteMode) : Task m Published := do
  if mode == .always then writeFile path contents
  else
    let existing ← existingText path
    if existing == some contents then
      Host.report ⟨.debug, publicationTarget, "'" ++ path.text ++ "' is up to date"⟩
      return .unchanged
    else if mode == .check then throw (.outdated path)
    else writeFile path contents

/-- Publishes a text in a file, or prints it if there is none. -/
def publish (path : Option Path) (contents : String) (mode : WriteMode) : Task m Published := do
  match path with
  | some path => publishFile path contents mode
  | none =>
    if mode == .check then throw (.settings .checkWithoutOutput)
    else
      match ← Host.print contents with
      | .error fault => throw (.unprinted fault)
      | .ok () => return .printed

/-- Writes a dependency file. -/
def writeDepfile (depfile target : Path) (dependencies : List Path) : Task m Unit := do
  replaceFile depfile (Depfile.rule target dependencies)
  Host.report
    ⟨.debug, publicationTarget, "Wrote dependency file '" ++ depfile.text ++ "'"⟩

end AttributeTables
