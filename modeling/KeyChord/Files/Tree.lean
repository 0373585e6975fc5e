import KeyChord.Files.Disk

/-!
# File trees

A file tree is a set of files and directories by the names that lead to them from the top. It serves
as a disk whose contents are a value.
-/

namespace KeyChord

/-- What stands at a place of a file tree. -/
inductive FileTree.Entry where
  /-- A directory. -/
  | directory
  /-- A file of some bytes. -/
  | file (bytes : ByteArray)

/-- Files and directories. -/
structure FileTree where
  /-- The entries by the names that lead to them, except for the top. -/
  entries : List (List String × FileTree.Entry) := []
  /-- The names of the directory from which paths start. -/
  current : List String := []

namespace FileTree

/-- What the names lead to. -/
def entry? (tree : FileTree) (names : List String) : Option Entry :=
  if names = [] then some .directory else tree.entries.lookup names

/-- The tree with an entry in place. -/
def put (tree : FileTree) (names : List String) (entry : Entry) : FileTree :=
  { tree with entries := (names, entry) :: tree.entries }

/-- The directories that lead from one directory to another, each made if it is missing. -/
def makeDirectories (tree : FileTree) : List String → List String → Except FileError FileTree
  | _, [] => .ok tree
  | above, ".." :: rest => tree.makeDirectories above.dropLast rest
  | above, name :: rest =>
    let names := above ++ [name]
    match tree.entry? names with
    | some .directory => tree.makeDirectories names rest
    | some (.file _) => .error (if rest.isEmpty then .alreadyExists else .notDirectory)
    | none => (tree.put names .directory).makeDirectories names rest

/-- The directory to which the names lead from another one. -/
def enter (tree : FileTree) : List String → List String → Except FileError (List String)
  | here, [] => .ok here
  | here, name :: rest =>
    let names := if name = ".." then here.dropLast else here ++ [name]
    match tree.entry? names with
    | some .directory => tree.enter names rest
    | some (.file _) => .error .notDirectory
    | none => .error .notFound

/-- The names of a path, and those of the directory where it starts. -/
def start (tree : FileTree) (path : String) : List String × List String :=
  let names := (pathNames path).filter fun name => name ≠ "" ∧ name ≠ "."
  (if isAbsolutePath path then [] else tree.current, names)

/-- Whether a path can only mean a directory. -/
def namesDirectory (path : String) : Bool :=
  match (pathNames path).getLast? with
  | some name => name = "" || name = "." || name = ".."
  | none => true

/-- The names of the place that a path means. Its last name need not be there. -/
def locate (tree : FileTree) (path : String) : Except FileError (List String) :=
  let (here, names) := tree.start path
  if path = "" then .error .notFound
  else if namesDirectory path then tree.enter here names
  else do return (← tree.enter here names.dropLast) ++ names.getLast?.toList

/-- What a path leads to. -/
def find (tree : FileTree) (path : String) : Except FileError Entry := do
  match tree.entry? (← tree.locate path) with
  | some entry => .ok entry
  | none => .error .notFound

/-- The bytes of the file at a path. -/
def read (tree : FileTree) (path : String) : Except FileError ByteArray := do
  match ← tree.find path with
  | .file bytes => .ok bytes
  | .directory => .error .isDirectory

/-- The tree with a file written. -/
def write (tree : FileTree) (path : String) (bytes : ByteArray) : Except FileError FileTree := do
  let names ← tree.locate path
  match tree.entry? names with
  | some .directory => .error .isDirectory
  | _ => .ok (tree.put names (.file bytes))

/-- The tree with a directory made, and those that lead to it. -/
def makeDirs (tree : FileTree) (path : String) : Except FileError FileTree :=
  let (here, names) := tree.start path
  tree.makeDirectories here names

/-- Whether there is anything at the path. -/
def hasEntry (tree : FileTree) (path : String) : Bool :=
  (tree.find path).isOk

/-- Goes on with the tree that an operation gives. -/
def update (result : FileTree → Except FileError FileTree) :
    StateM FileTree (Except FileError Unit) := do
  match result (← get) with
  | .ok tree => set tree; return .ok ()
  | .error error => return .error error

/-- The disk that a file tree is. -/
def disk : Disk (StateM FileTree) where
  read path := do return (← get).read path
  write path bytes := update (·.write path bytes)
  makeDirs path := update (·.makeDirs path)

end FileTree

end KeyChord
