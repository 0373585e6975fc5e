import KeyChord.Keystroke.Key
import KeyChord.Keystroke.Modifiers

/-!
# Keystrokes

A keystroke is a key that goes down while modifiers are held. Two keystrokes are the same when key
and modifiers are.
-/

namespace KeyChord

/-- A key together with the modifiers held. -/
structure Keystroke where
  /-- The key, in its normal spelling. -/
  key : String
  /-- The modifiers held. -/
  mods : Modifiers
  deriving DecidableEq, Hashable, Repr

namespace Keystroke

/-- The keystroke of a key in any spelling. -/
def ofKey (raw : String) (mods : Modifiers) : Keystroke :=
  ⟨Key.normalize raw, mods⟩

/-- The keystroke of the key that types a character. -/
def ofChar (c : Char) (mods : Modifiers) : Keystroke :=
  ofKey (String.singleton c) mods

/-- How a keystroke is shown: its modifiers and its key, joined by plus signs. -/
def text (k : Keystroke) : String :=
  "+".intercalate (k.mods.labels ++ [Key.label k.key])

end Keystroke

end KeyChord
