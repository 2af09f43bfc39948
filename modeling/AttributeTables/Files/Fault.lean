/-!
# Faults of files

What a file system answers when it refuses an operation.
-/

namespace AttributeTables.Files

/-- Why an operation on a file failed. -/
inductive Fault where
  | notFound
  | notDirectory
  | isDirectory
  | nameTooLong
  /-- The path names a directory by dots, or the root. -/
  | busy
  | permissionDenied
  /-- The file would have more bytes than a file can have. -/
  | tooLarge
  /-- The path has a zero character in it, which no operation but a move sees. -/
  | zeroInPath
  | invalidMove
  /-- The file is no text. -/
  | notText
  /-- Anything else, in the system's own words. -/
  | other (message : String)
  deriving DecidableEq

/-- The text for the user. -/
def Fault.message : Fault → String
  | .notFound => "No such file or directory (os error 2)"
  | .notDirectory => "Not a directory (os error 20)"
  | .isDirectory => "Is a directory (os error 21)"
  | .nameTooLong => "File name too long (os error 36)"
  | .busy => "Device or resource busy (os error 16)"
  | .permissionDenied => "Permission denied (os error 13)"
  | .tooLarge => "File too large (os error 27)"
  | .zeroInPath => "file name contained an unexpected NUL byte"
  | .invalidMove => "Invalid argument (os error 22)"
  | .notText => "stream did not contain valid UTF-8"
  | .other message => message

/-- Refuses with the fault, if there is one. -/
def Fault.check : Option Fault → Except Fault Unit
  | some fault => .error fault
  | none => .ok ()

theorem Fault.check_eq_ok_iff {fault? : Option Fault} {u : Unit} :
    Fault.check fault? = .ok u ↔ fault? = none := by
  cases fault? <;> simp [check]

end AttributeTables.Files
