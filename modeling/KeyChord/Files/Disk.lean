/-!
# Files

What the library wants of a file system: to read, to write and to make directories. The
operations are parameters, so that the same functions work on the files of a machine and on files
that are only thought of (`FileTree`). Paths are texts, with slashes between the names.
-/

namespace KeyChord

/-- Why a file operation failed. -/
inductive FileError where
  /-- Nothing is there. -/
  | notFound
  /-- Something is there already. -/
  | alreadyExists
  /-- The path leads through something that is no directory. -/
  | notDirectory
  /-- A directory is there. -/
  | isDirectory
  /-- The bytes are not UTF-8. -/
  | notText
  /-- Anything else that a system reports. -/
  | other (text : String)
  deriving DecidableEq

/-- What is wrong, and the number of the error in systems that number them. -/
def FileError.message : FileError → String
  | notFound => "No such file or directory (os error 2)"
  | alreadyExists => "File exists (os error 17)"
  | notDirectory => "Not a directory (os error 20)"
  | isDirectory => "Is a directory (os error 21)"
  | notText => "stream did not contain valid UTF-8"
  | other text => text

/-- What stands between the slashes of a path. -/
def pathNames (path : String) : List String :=
  (path.toList.splitOn '/').map String.ofList

/-- Whether a path starts at the root. -/
def isAbsolutePath (path : String) : Bool :=
  path.toList.head? == some '/'

/-- The file operations, in a monad in which they take effect. -/
structure Disk (m : Type → Type) where
  /-- The bytes of the file at the path. -/
  read : String → m (Except FileError ByteArray)
  /-- Writes a file. -/
  write : String → ByteArray → m (Except FileError Unit)
  /-- Makes a directory, and those that lead to it. -/
  makeDirs : String → m (Except FileError Unit)

/-- The text of the bytes of a file. -/
def fileText (bytes : Except FileError ByteArray) : Except FileError String := do
  match String.fromUTF8? (← bytes) with
  | some text => .ok text
  | none => .error .notText

/-- The text of the file at a path. -/
def Disk.readText {m : Type → Type} [Monad m] (disk : Disk m) (path : String) :
    m (Except FileError String) :=
  fileText <$> disk.read path

end KeyChord
