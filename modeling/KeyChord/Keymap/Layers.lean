import KeyChord.Files.Disk
import KeyChord.Files.Locations
import KeyChord.Keymap.Default

/-!
# Keymap files in layers

The keymap in force is the default keymap with keymap files laid over it, one after another. A file
counts as a whole or not at all: one that is missing, unreadable or malformed is passed over.
-/

namespace KeyChord

namespace Keymap

/-- Why a keymap file cannot be loaded. -/
inductive LoadError where
  /-- The file cannot be read. -/
  | unreadable (error : FileError)
  /-- The text of the file gives no keymap. -/
  | invalid (error : Error)
  deriving DecidableEq

/-- What is wrong with the file. -/
def LoadError.message : LoadError → String
  | unreadable error => "IO error: " ++ error.message
  | invalid error => error.message

/-- The keymap in a file of the given contents. -/
def ofFile (contents : Except FileError String) (decoder : Source.Decoder := .yaml) :
    Except LoadError Keymap := do
  (read (← contents.mapError .unreadable) decoder).mapError .invalid

end Keymap

namespace Registry

/-- The registry with a layer on top, of which the contents of the file are given. -/
def mergeFile (r : Registry) (contents : Except FileError String)
    (decoder : Keymap.Source.Decoder := .yaml) : Registry :=
  match Keymap.ofFile contents decoder with
  | .ok keymap => r.merge keymap
  | .error _ => r

/-- The registry with layers on top, of which the contents of the files are given. -/
def mergeFiles (r : Registry) (layers : List (Except FileError String))
    (decoder : Keymap.Source.Decoder := .yaml) : Registry :=
  layers.foldl (fun r contents => r.mergeFile contents decoder) r

end Registry

variable {m : Type → Type} [Monad m]

/-- The keymap in a file. -/
def Keymap.load (disk : Disk m) (path : String) : m (Except LoadError Keymap) :=
  (ofFile ·) <$> disk.readText path

/-- The registry of the default keymap and the layers that the environment calls for. -/
def Registry.load (disk : Disk m) (env : Environment) : m Registry := do
  return Keymap.Default.registry.mergeFiles (← env.keymapLayers.mapM disk.readText)

end KeyChord
