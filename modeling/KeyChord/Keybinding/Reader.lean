import KeyChord.Keybinding.Basic
import KeyChord.Text.Blank
import KeyChord.Text.Quoted

/-!
# Reading keybindings

A keystroke is written as the words of its modifiers and its key, joined by plus signs, in any
order: `ctrl+shift+s`. Empty stretches between plus signs do not count. The plus key is written
`+`, or after modifiers as a plus sign at the end: `ctrl++`. A keybinding is written as its
keystrokes, separated by blanks.
-/

namespace KeyChord

/-- Why a text is no keybinding. -/
inductive KeyError where
  /-- The text names no key. -/
  | noKey (text : String)
  /-- The text names more than one key in one keystroke. -/
  | severalKeys (text : String)
  /-- The text holds no keystroke at all. -/
  | noKeystrokes (text : String)
  deriving DecidableEq, Repr

/-- What is wrong with the text. -/
def KeyError.message : KeyError → String
  | .noKey text => "Invalid key: No key found in binding: " ++ text
  | .severalKeys text => "Invalid key: Multiple keys in binding: " ++ text
  | .noKeystrokes text => "Invalid key: No keys in binding: " ++ Text.quoted text

/-- The modifier that a word names, in any letter case. -/
def Modifiers.ofWord? (word : String) : Option Modifiers :=
  match Text.toLower word with
  | "cmd" | "mod" => some primary
  | "ctrl" | "control" => some { ctrl := true }
  | "shift" => some { shift := true }
  | "alt" | "option" | "opt" => some { alt := true }
  | "meta" | "super" | "win" => some { super := true }
  | _ => .none

namespace Keystroke

/-- What the words of a keystroke have named so far. -/
structure Draft where
  /-- The modifiers. -/
  mods : Modifiers := {}
  /-- The key. -/
  key : Option String := none

/-- Takes one more word: a modifier, or the key if there is none yet. -/
def Draft.add? (draft : Draft) (word : String) : Option Draft :=
  match Modifiers.ofWord? word, draft.key with
  | some mods, _ => some { draft with mods := draft.mods.union mods }
  | none, none => some { draft with key := some word }
  | none, some _ => none

/-- The text in front of a plus sign that is the key, if the key is written so. -/
def beforePlusKey? (text : List Char) : Option (List Char) :=
  if text = ['+'] then some []
  else
    match text.reverse with
    | '+' :: '+' :: rest => some rest.reverse
    | _ => none

/-- The keystroke that a text writes. -/
def read (text : String) : Except KeyError Keystroke :=
  let (start, words) : Draft × String := match beforePlusKey? text.toList with
    | some front => ({ key := some "+" }, String.ofList front)
    | none => ({}, text)
  match (Text.pieces (· == '+') words).foldlM Draft.add? start with
  | none => .error (.severalKeys text)
  | some ⟨mods, some key⟩ => .ok (ofKey key mods)
  | some ⟨_, none⟩ => .error (.noKey text)

end Keystroke

/-- The keybinding that a text writes. -/
def Keybinding.read (text : String) : Except KeyError Keybinding := do
  let keystrokes ← (Text.words text).mapM Keystroke.read
  match ofList? keystrokes with
  | some kb => .ok kb
  | none => .error (.noKeystrokes text)

/-- The keystrokes of several keybindings, one after another. -/
def Keystroke.readAll (texts : List String) : Except KeyError (List Keystroke) := do
  return (← texts.mapM Keybinding.read).flatMap Keybinding.keystrokes

end KeyChord
