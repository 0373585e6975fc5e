import KeyChord.Registry.Basic

/-!
# Edits of the registry

The ways in which a registry changes, as data. An edit of a command that is not registered changes
nothing; `Registry.Edit.succeeds` tells.
-/

namespace KeyChord.Registry

/-- A change to the registry. -/
inductive Edit where
  /-- Registers a command. -/
  | register (c : Command)
  /-- Removes a command. -/
  | unregister (id : String)
  /-- Sets or takes back the user's keybinding. -/
  | setKeys (id : String) (keys : Option Keybinding)
  /-- Sets or takes back the user's when-clause. -/
  | setWhen (id : String) (clause : Option When.Clause)
  /-- Takes every keybinding away. -/
  | unbind (id : String)
  /-- Takes back whatever the user has changed. -/
  | reset (id : String)
  /-- Applies an override. -/
  | override (o : Override)
  deriving DecidableEq

/-- The registry after an edit, unless the edit is of an unknown command. -/
def Edit.perform? (r : Registry) : Edit → Option Registry
  | .register c => some (r.register c)
  | .unregister id => (r.unregister? id).map (·.2)
  | .setKeys id keys => r.setKeys? id keys
  | .setWhen id clause => r.setWhen? id clause
  | .unbind id => r.unbind? id
  | .reset id => r.reset? id
  | .override o => r.override? o

/-- Whether the edit is of a command that is registered, or registers one. -/
def Edit.succeeds (r : Registry) (edit : Edit) : Bool :=
  (edit.perform? r).isSome

/-- The registry after an edit. -/
def edit (r : Registry) (edit : Edit) : Registry :=
  (edit.perform? r).getD r

/-- The registry after some edits in order. -/
def editAll (r : Registry) (edits : List Edit) : Registry :=
  edits.foldl edit r

theorem editAll_cons (r : Registry) (e : Edit) (edits : List Edit) :
    r.editAll (e :: edits) = (r.edit e).editAll edits := rfl

theorem edit_override (r : Registry) (o : Override) :
    r.edit (.override o) = (r.override? o).getD r := rfl

end KeyChord.Registry
