import KeyChord.Files.Disk

/-!
# Where the files are

The program keeps its files in one directory, below the directory where the user keeps settings: the
one that the environment names, or `.config` in the user's home.
-/

namespace KeyChord

/-- The path of a name in a directory. A name that starts at the root stands for itself. -/
def joinPath (directory name : String) : String :=
  if isAbsolutePath name || directory = "" then name
  else if directory.endsWith "/" then directory ++ name
  else directory ++ "/" ++ name

/-- The path of the directory in which the last name of a path stands, if the path has a name. What
leads nowhere at the end of either path, as does a second slash or a single dot, is left out. -/
def parentPath? (path : String) : Option String :=
  let leadsNowhere (name : String) : Bool := name = "" || name = "."
  match pathNames path with
  | [] => none
  | first :: rest =>
    match rest.reverse.dropWhile leadsNowhere with
    | [] => if first = "" then none else some ""
    | _ :: above =>
      let above := (above.dropWhile leadsNowhere).reverse
      some (if first = "" && above.isEmpty then "/" else "/".intercalate (first :: above))

/-- What the environment of a program says about its user's directories. -/
structure Environment where
  /-- The variable `XDG_CONFIG_HOME`. -/
  configHome : Option String := none
  /-- The variable `HOME`. -/
  home : Option String := none
  /-- The home directory that the system knows for the user. -/
  accountHome : Option String := none
  deriving DecidableEq

namespace Environment

/-- The user's home directory: what the variable says if it says anything. -/
def homeDir (env : Environment) : Option String :=
  (env.home.filter (· ≠ "")).or env.accountHome

/-- The directory of the program's files. -/
def dir (env : Environment) : Option String :=
  (env.configHome.or (env.homeDir.map (joinPath · ".config"))).map (joinPath · "chordmap")

/-- The file of the settings. -/
def settingsFile (env : Environment) : Option String :=
  env.dir.map (joinPath · "config.yaml")

/-- The keymap file of the user. -/
def keymapFile (env : Environment) : Option String :=
  env.dir.map (joinPath · "keymap.yaml")

/-- The directory of the logs. -/
def logsDir (env : Environment) : Option String :=
  env.dir.map (joinPath · "logs")

/-- The keymap files that are laid over the default keymap, in order: that of the current directory
and that of the user. -/
def keymapLayers (env : Environment) : List String :=
  "keymap.yaml" :: env.keymapFile.toList

end Environment

end KeyChord
