import KeyChord.CommandLine.Run

/-!
# The command line program
-/

namespace KeyChord

/-- The error of a file operation, by the number that the system gives it. -/
def FileError.ofSystem (error : IO.Error) : FileError :=
  match error with
  | .noFileOrDirectory .. => .notFound
  | .alreadyExists .. => .alreadyExists
  | .inappropriateType _ code _ => if code = 20 then .notDirectory else .isDirectory
  | _ => .other (toString error)

/-- The result of a file operation. -/
def attempt {α : Type} (action : IO α) : IO (Except FileError α) :=
  try return .ok (← action)
  catch error => return .error (.ofSystem error)

/-- The files of the machine. -/
def machineDisk : Disk IO where
  read path := attempt (IO.FS.readBinFile path)
  write path bytes := attempt (IO.FS.writeBinFile path bytes)
  makeDirs path := attempt (IO.FS.createDirAll path)

end KeyChord

/-- Runs the program. -/
def main (words : List String) : IO UInt32 := do
  let env : KeyChord.Environment := {
    configHome := ← IO.getEnv "XDG_CONFIG_HOME"
    home := ← IO.getEnv "HOME" }
  let outcome ← KeyChord.CommandLine.run KeyChord.machineDisk env words
  (← IO.getStdout).putStr outcome.out
  (← IO.getStderr).putStr outcome.err
  return outcome.code.toUInt32
