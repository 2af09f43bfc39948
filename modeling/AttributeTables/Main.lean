import AttributeTables.Program

/-!
# The program on a real system
-/

namespace AttributeTables

/-- The number and the text of an error of the system. -/
def systemError? (e : IO.Error) : Option (UInt32 × String) :=
  match e with
  | .interrupted _ code text | .noFileOrDirectory _ code text => some (code, text)
  | .alreadyExists _ code text | .invalidArgument _ code text | .permissionDenied _ code text
  | .resourceExhausted _ code text | .inappropriateType _ code text | .noSuchThing _ code text =>
    some (code, text)
  | .otherError code text | .resourceBusy code text | .resourceVanished code text
  | .unsupportedOperation code text | .hardwareFault code text | .unsatisfiedConstraints code text
  | .illegalOperation code text | .protocolError code text | .timeExpired code text =>
    some (code, text)
  | .unexpectedEof | .userError _ => none

/-- The fault that an error of the system stands for. -/
def faultOf (e : IO.Error) : Files.Fault :=
  match systemError? e with
  | some (2, _) => .notFound
  | some (13, _) => .permissionDenied
  | some (16, _) => .busy
  | some (20, _) => .notDirectory
  | some (21, _) => .isDirectory
  | some (22, _) => .invalidMove
  | some (27, _) => .tooLarge
  | some (36, _) => .nameTooLong
  | some (code, text) => .other (text ++ " (os error " ++ toString code ++ ")")
  | none => .other (toString e)

/-- What the system answers when a file is there already. -/
def nameTaken : Files.Fault := .other "File exists (os error 17)"

/-- An action with its fault, if it has one. -/
def attempt (action : IO α) : IO (Except Files.Fault α) := do
  try return .ok (← action) catch e => return .error (faultOf e)

/-- An action on a path, which must not have a zero character in it. -/
def attemptOn (path : Path) (zero : Files.Fault) (action : IO α) : IO (Except Files.Fault α) :=
  if path.text.toList.contains '\x00' then return .error zero else attempt action

/-- Letters and digits for the names of temporary files. -/
def nameChars : Array Char :=
  "abcdefghijklmnopqrstuvwxyzABCDEFGHIJKLMNOPQRSTUVWXYZ0123456789".toList.toArray

/-- A name for a temporary file, chosen at random. -/
def randomName : IO String := do
  let letters ← (List.range 6).mapM fun _ => do
    return nameChars[← IO.rand 0 (nameChars.size - 1)]?.getD 'X'
  return ".tmp" ++ String.ofList letters

/-- Creates a temporary file that only its owner may use. -/
def createOnce (directory : Path) : IO (Except (Files.Fault × Path) Temporary) := do
  let working : Path := ⟨(← IO.currentDir).toString⟩
  let path := (working.join directory).join ⟨← randomName⟩
  let created ← attemptOn path .zeroInPath do
    let _ ← IO.FS.Handle.mk path.text .writeNew
    IO.setAccessRights path.text { user := { read := true, write := true } }
  match created with
  | .ok () => return .ok ⟨path, path.pieces⟩
  | .error fault => return .error (fault, path)

/-- Creates a temporary file. Some more names are tried if one is taken. -/
def createTemporary (directory : Path) : Nat → IO (Except (Files.Fault × Path) Temporary)
  | 0 => createOnce directory
  | more + 1 => do
    match ← createOnce directory with
    | .error (fault, path) =>
      if fault = nameTaken then createTemporary directory more else return .error (fault, path)
    | .ok t => return .ok t

instance : Host (StateT Log.Filter IO) where
  read path := attemptOn path .zeroInPath (IO.FS.readBinFile path.text)
  create directory := createTemporary directory 16
  write t contents := attempt (IO.FS.writeFile t.path.text contents)
  move t path := attemptOn path .invalidMove (IO.FS.rename t.path.text path.text)
  remove t := do let _ ← attempt (IO.FS.removeFile t.path.text)
  print text := attempt do
    let output ← IO.getStdout
    output.putStr text
    output.flush
  printError text := do (← IO.getStderr).putStr text
  setFilter filter := set filter
  report r := do
    if (← get).admits r then (← IO.getStderr).putStr r.line

end AttributeTables

/-- Runs the program with the words of the command line. -/
def main (words : List String) : IO UInt32 := do
  let environment ← IO.getEnv "RUST_LOG"
  let action : StateT AttributeTables.Log.Filter IO Nat :=
    AttributeTables.runProgram words environment
  let (code, _) ← action.run { fallback := none }
  return code.toUInt32
