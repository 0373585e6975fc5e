import KeyChord.Keybinding.Reader
import KeyChord.Keymap.Source
import KeyChord.Registry.Basic

/-!
# Keymaps

A keymap is what a keymap file says: commands with their default keybindings, and overrides of
commands that are already known. An entry may be meant for one platform; on other platforms it is
as if it were not there. A file with a bad entry gives no keymap at all, and the first bad entry is
to blame.
-/

namespace KeyChord

/-- Commands to register, and overrides to apply afterwards. -/
structure Keymap where
  /-- The commands, in the order of the file. -/
  commands : List Command := []
  /-- The overrides, in the order of the file. -/
  overrides : List Override := []
  deriving DecidableEq

namespace Keymap

/-- The keymap that says nothing. -/
def empty : Keymap := {}

/-- Why a text gives no keymap. -/
inductive Error where
  /-- The text is not a YAML document of the right shape. -/
  | malformed (error : Yaml.Error)
  /-- An entry has a bad keybinding. -/
  | invalidKeys (error : KeyError)
  /-- An entry names no command. -/
  | noCommand
  deriving DecidableEq

/-- What is wrong with the text. -/
def Error.message : Error → String
  | malformed error => "Parse error: " ++ error.message
  | invalidKeys error => error.message
  | noCommand => "Invalid command: empty command id"

/-- The platform whose entries count. -/
def hostPlatform : String := "linux"

/-- The category of a command whose entry gives none. -/
def defaultCategory : String := "General"

/-- The name of a command, without blanks around it. -/
def readCommand (text : String) : Except Error String :=
  let id := Text.trim text
  if id = "" then .error .noCommand else .ok id

/-- The keybinding of an entry. -/
def readKeys (text : String) : Except Error Keybinding :=
  (Keybinding.read text).mapError .invalidKeys

/-- The keybinding of an entry that may give none. -/
def readKeys? : Option String → Except Error (Option Keybinding)
  | none => .ok none
  | some text => (readKeys text).map some

/-- The when-clause of an entry. A blank one is none. -/
def readClause (text : Option String) : Option When.Clause :=
  (text.map Text.trim |>.filter (· ≠ "")).map When.Clause.ofSource

/-- Whether an entry counts on this platform. -/
def CommandEntry.applies (entry : CommandEntry) : Bool :=
  entry.platform.all (· == hostPlatform)

/-- The command that an entry describes. -/
def CommandEntry.command? (entry : CommandEntry) : Except Error Command := do
  let id ← readCommand entry.command
  let keys ← readKeys? entry.keys
  return {
    id
    label := entry.label.getD id
    category := entry.category.getD defaultCategory
    defaultKeys := keys
    defaultWhen := readClause entry.clause }

/-- What an entry does to the keybinding. A keybinding beside `unbind` does not count. -/
def OverrideEntry.keyChange? (entry : OverrideEntry) : Except Error KeyChange :=
  if entry.unbind then .ok .unbind
  else
    match entry.keys with
    | none => .ok .inherit
    | some text => (readKeys text).map .set

/-- The override that an entry describes. -/
def OverrideEntry.override? (entry : OverrideEntry) : Except Error Override := do
  let command ← readCommand entry.command
  return { command, keys := ← entry.keyChange?, clause := readClause entry.clause }

/-- The keymap that the entries of a file describe. -/
def ofSource (source : Source) : Except Error Keymap := do
  let commands ← (source.commands.filter CommandEntry.applies).mapM CommandEntry.command?
  let overrides ← source.overrides.mapM OverrideEntry.override?
  return { commands, overrides }

/-- The keymap that a text writes. -/
def read (text : String) (decoder : Source.Decoder := .yaml) : Except Error Keymap := do
  ofSource (← (Source.read text decoder).mapError .malformed)

end Keymap

/-- The registry with a keymap on top: its commands are registered, then its overrides applied.
Overrides of unknown commands do nothing. -/
def Registry.merge (r : Registry) (keymap : Keymap) : Registry :=
  ((keymap.commands.foldl register r).overrideAll keymap.overrides).2

end KeyChord
