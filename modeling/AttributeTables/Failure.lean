import AttributeTables.Host
import AttributeTables.Manifest
import AttributeTables.Output
import AttributeTables.Settings

/-!
# Failures of the program
-/

namespace AttributeTables

/-- Why a request was not carried out. -/
inductive Failure where
  /-- The manifest cannot be read. -/
  | input (fault : Files.Fault)
  | manifest (f : Manifest.Failure)
  | output (f : Output.Failure)
  | config (f : Config.Failure)
  | settings (f : Settings.Fault)
  /-- Another file cannot be read. -/
  | unreadable (path : Path) (fault : Files.Fault)
  /-- A temporary file cannot be created or written. The first path is the one at fault. -/
  | scratch (path : Path) (fault : Files.Fault) (file : Path)
  /-- The output is not what it should be. -/
  | outdated (path : Path)
  /-- The temporary file cannot be moved to the path. It is left over. -/
  | unpublished (path : Path) (fault : Files.Fault) (leftover : Temporary)
  /-- The generated text cannot be printed. -/
  | unprinted (fault : Files.Fault)
  /-- The listing cannot be printed. The program does not expect this and panics. -/
  | unlisted (fault : Files.Fault)
  deriving DecidableEq

namespace Failure

/-- The text for the user. -/
def message : Failure → String
  | .input fault => "I/O error: " ++ fault.message
  | .manifest f => f.message
  | .output f => f.message
  | .config f => f.message
  | .settings f => f.message
  | .unreadable path fault => "I/O error on '" ++ path.text ++ "': " ++ fault.message
  | .scratch path fault file =>
    "I/O error on '" ++ path.text ++ "': " ++ fault.message ++ " at path " ++
      Text.quoted file.text
  | .outdated path => "Generated output differs from '" ++ path.text ++ "'"
  | .unpublished path fault _ =>
    "Failed to publish '" ++ path.text ++ "': failed to persist temporary file: " ++ fault.message
  | .unprinted fault => "I/O error on '<stdout>': " ++ fault.message
  | .unlisted fault => "failed printing to stdout: " ++ fault.message

/-- What is printed about the failure in the end. For a panic the place where it came up and the note
on traces are left out. -/
def report : Failure → String
  | .unlisted fault => "\nthread 'main' panicked:\n" ++ message (.unlisted fault) ++ "\n"
  | f => "Error: " ++ f.message ++ "\n"

/-- The exit code of the program after the failure. -/
def exitCode : Failure → Nat
  | .unlisted _ => 101
  | _ => 1

/-- The temporary file that is left over. -/
def leftover? : Failure → Option Temporary
  | .unpublished _ _ leftover => some leftover
  | _ => none

/-- Removes the temporary file that is left over. -/
def release {m : Type → Type} [Monad m] [Host m] (f : Failure) : m Unit :=
  match f.leftover? with
  | some leftover => Host.remove leftover
  | none => return ()

end Failure

/-- Something to do on a host, which may fail. -/
abbrev Task (m : Type → Type) := ExceptT Failure m

/-- Carries out a task. What its failure leaves over is removed. -/
def Task.conclude {m : Type → Type} [Monad m] [Host m] (task : Task m α) :
    m (Except Failure α) := do
  match ← ExceptT.run task with
  | .ok a => return .ok a
  | .error f =>
    f.release
    return .error f

end AttributeTables
