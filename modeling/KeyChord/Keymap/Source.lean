import KeyChord.Text.Blank
import KeyChord.Yaml.Decode

/-!
# Keymap files as they are written

A keymap file lists commands under `bindings` and changes to commands under `overrides`. Here its
entries are read field by field; what the texts in the fields mean is left to `Keymap.ofSource`.
What is done with the entries does not depend on how they are written, so that a file may be read by
any `Source.Decoder`.
-/

namespace KeyChord.Keymap

/-- An entry under `bindings`. -/
structure CommandEntry where
  /-- The field `command`. -/
  command : String
  /-- The field `label`. -/
  label : Option String
  /-- The field `category`. -/
  category : Option String
  /-- The field `key`. -/
  keys : Option String
  /-- The field `when`. -/
  clause : Option String
  /-- The field `platform`. -/
  platform : Option String
  deriving DecidableEq

/-- An entry under `overrides`. -/
structure OverrideEntry where
  /-- The field `command`. -/
  command : String
  /-- The field `key`. -/
  keys : Option String
  /-- The field `when`. -/
  clause : Option String
  /-- The field `unbind`. -/
  unbind : Bool
  deriving DecidableEq

/-- The entries of a keymap file. -/
structure Source where
  /-- The entries under `bindings`. -/
  commands : List CommandEntry := []
  /-- The entries under `overrides`. -/
  overrides : List OverrideEntry := []
  deriving DecidableEq

open Yaml

/-- A text that may be left out. -/
def optionalText (fields : List (String × Node)) (name : String) : Reading (Option String) :=
  fieldOr fields name none (Node.optional Node.text)

/-- Reads an entry under `bindings`. -/
def CommandEntry.reading (node : Node) : Reading CommandEntry := do
  let fields ← node.fields ["command", "label", "category", "key", "when", "platform"]
  return {
    command := ← requiredField fields "command" Node.text
    label := ← optionalText fields "label"
    category := ← optionalText fields "category"
    keys := ← optionalText fields "key"
    clause := ← optionalText fields "when"
    platform := ← optionalText fields "platform" }

/-- Reads an entry under `overrides`. -/
def OverrideEntry.reading (node : Node) : Reading OverrideEntry := do
  let fields ← node.fields ["command", "key", "when", "unbind"]
  return {
    command := ← requiredField fields "command" Node.text
    keys := ← optionalText fields "key"
    clause := ← optionalText fields "when"
    unbind := ← fieldOr fields "unbind" false Node.bool }

/-- Reads the entries of a keymap file. -/
def Source.reading (node : Node) : Reading Source := do
  let fields ← node.fields ["bindings", "overrides"]
  return {
    commands := ← fieldOr fields "bindings" [] (Node.items CommandEntry.reading)
    overrides := ← fieldOr fields "overrides" [] (Node.items OverrideEntry.reading) }

/-- What finds the entries in a text that is not blank. -/
abbrev Source.Decoder := String → Except Yaml.Error Source

/-- Keymap files are documents. -/
def Source.Decoder.yaml : Decoder :=
  decode Source.reading

/-- The entries of a keymap file with the given text. A blank text has none. -/
def Source.read (text : String) (decoder : Decoder := .yaml) : Except Yaml.Error Source :=
  if Text.isBlankText text then .ok {} else decoder text

end KeyChord.Keymap
