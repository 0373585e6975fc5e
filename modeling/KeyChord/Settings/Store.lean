import KeyChord.Files.Disk
import KeyChord.Files.Locations
import KeyChord.Settings.Basic

/-!
# Where settings are kept

Settings are read from a file and written to it. Reading never fails: what cannot be read is as good
as no file. Writing makes the directory of the file first.
-/

namespace KeyChord

/-- Why the files of the program cannot be written. -/
inductive StoreError where
  /-- The user has no directory for them. -/
  | noDirectory
  /-- The directory of the settings cannot be made. -/
  | settingsDirectory (error : FileError)
  /-- The settings cannot be written. -/
  | settingsFile (path : String) (error : FileError)
  /-- A directory cannot be made. -/
  | directory (path : String) (error : FileError)
  deriving DecidableEq

/-- What is wrong. -/
def StoreError.message : StoreError → String
  | noDirectory => "No config directory available"
  | settingsDirectory error => "Failed to create config directory: " ++ error.message
  | settingsFile path error => "Failed to write config to " ++ path ++ ": " ++ error.message
  | directory path error => "Failed to create directory " ++ path ++ ": " ++ error.message

/-- A directory that may be wanted of the environment. -/
def Environment.wanted (path : Option String) : Except StoreError String :=
  path.elim (.error .noDirectory) .ok

variable {m : Type → Type} [Monad m]

namespace Settings

/-- The settings in a file of the given contents. -/
def ofFile (contents : Except FileError String) : Settings :=
  match contents with
  | .ok text => ofText text
  | .error _ => default

/-- The settings in the file at a path. -/
def loadFrom (disk : Disk m) (path : String) : m Settings :=
  ofFile <$> disk.readText path

/-- The settings that the user has saved. -/
def load (disk : Disk m) (env : Environment) : m Settings :=
  match env.settingsFile with
  | some path => loadFrom disk path
  | none => return default

/-- Writes settings to the file at a path. -/
def saveTo (disk : Disk m) (path : String) (s : Settings) : m (Except StoreError Unit) :=
  ExceptT.run do
    if let some dir := parentPath? path then
      ExceptT.mk (Except.mapError .settingsDirectory <$> disk.makeDirs dir)
    ExceptT.mk (Except.mapError (.settingsFile path) <$> disk.write path s.text.toUTF8)

/-- Saves settings. -/
def save (disk : Disk m) (env : Environment) (s : Settings) : m (Except StoreError Unit) :=
  match env.settingsFile with
  | some path => s.saveTo disk path
  | none => return .error .noDirectory

end Settings

namespace Environment

/-- Makes a directory, and gives its path. -/
def ensure (disk : Disk m) (path : String) : ExceptT StoreError m String := do
  ExceptT.mk (Except.mapError (.directory path) <$> disk.makeDirs path)
  return path

/-- Makes the directory of the program's files. -/
def ensureDir (disk : Disk m) (env : Environment) : ExceptT StoreError m String := do
  ensure disk (← ExceptT.mk (pure (wanted env.dir)))

/-- Makes the directory of the logs, after that of the program's files. -/
def ensureLogsDir (disk : Disk m) (env : Environment) : ExceptT StoreError m String := do
  ensure disk (joinPath (← env.ensureDir disk) "logs")

end Environment

end KeyChord
