import KeyChord.Command.Basic

/-!
# Overrides

An override is one change that a user wishes for one command: to its keybinding, its when-clause or
both.
-/

namespace KeyChord

/-- What an override does to the keybinding. -/
inductive KeyChange where
  /-- The keybinding stays what it is. -/
  | inherit
  /-- The command loses its keybinding. -/
  | unbind
  /-- The command gets the keybinding. -/
  | set (keys : Keybinding)
  deriving DecidableEq

/-- A change to one command. -/
structure Override where
  /-- The command. -/
  command : String
  /-- What happens to its keybinding. -/
  keys : KeyChange
  /-- The new when-clause, if there is one. -/
  clause : Option When.Clause
  deriving DecidableEq

/-- The command after a change of its keybinding. -/
def KeyChange.apply (change : KeyChange) (c : Command) : Command :=
  match change with
  | .inherit => c
  | .unbind => c.withoutKeys
  | .set keys => c.withKeys (some keys)

/-- The command after an override. -/
def Override.apply (o : Override) (c : Command) : Command :=
  let changed := o.keys.apply c
  if o.clause.isSome then changed.withWhen o.clause else changed

/-- An override leaves the name of the command alone. -/
@[simp]
theorem Override.id_apply (o : Override) (c : Command) : (o.apply c).id = c.id := by
  unfold Override.apply KeyChange.apply
  cases o.keys <;> cases o.clause <;> rfl

end KeyChord
