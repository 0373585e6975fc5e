import KeyChord.Keybinding.Basic
import KeyChord.When.Clause

/-!
# Commands

A command is what keystrokes trigger. It comes with a default keybinding and a default when-clause;
what the user has chosen instead is kept beside them, so that it can be taken back. Everything else
reads the *effective* values.

- `Command.isCustomized_reset`: a command that has been reset is not customized.
- `Command.effectiveKeys_of_not_isCustomized`, `Command.effectiveWhen_of_not_isCustomized`: the
  effective values of a command that is not customized are its defaults.
-/

namespace KeyChord

/-- A command and the keys that trigger it. -/
structure Command where
  /-- The name by which the application knows the command. -/
  id : String
  /-- The name that users see. -/
  label : String
  /-- The group under which settings list the command. -/
  category : String
  /-- The keybinding that the command comes with. -/
  defaultKeys : Option Keybinding := none
  /-- The keybinding that the user has chosen. -/
  customKeys : Option Keybinding := none
  /-- The when-clause that the command comes with. -/
  defaultWhen : Option When.Clause := none
  /-- The when-clause that the user has chosen. -/
  customWhen : Option When.Clause := none
  /-- Whether the user has taken every keybinding away. -/
  unbound : Bool := false
  deriving DecidableEq

namespace Command

/-- The keybinding in force: none if the user has taken it away, else the user's, else the
default. -/
def effectiveKeys (c : Command) : Option Keybinding :=
  if c.unbound then none else c.customKeys.or c.defaultKeys

/-- The when-clause in force: the user's, else the default. -/
def effectiveWhen (c : Command) : Option When.Clause :=
  c.customWhen.or c.defaultWhen

/-- Whether the command is active in a context. Without a when-clause it always is. -/
def isEnabled (c : Command) (context : Context) : Bool :=
  c.effectiveWhen.all (·.holds context)

/-- Whether the user has changed anything. -/
def isCustomized (c : Command) : Bool :=
  c.unbound || c.customKeys.isSome || c.customWhen.isSome

/-- The command as it came. -/
def reset (c : Command) : Command :=
  { c with customKeys := none, customWhen := none, unbound := false }

/-- The command with the user's keybinding, or back with the default one. -/
def withKeys (keys : Option Keybinding) (c : Command) : Command :=
  { c with customKeys := keys, unbound := false }

/-- The command with the user's when-clause, or back with the default one. -/
def withWhen (clause : Option When.Clause) (c : Command) : Command :=
  { c with customWhen := clause }

/-- The command without a keybinding. -/
def withoutKeys (c : Command) : Command :=
  { c with customKeys := none, unbound := true }

theorem isCustomized_reset (c : Command) : c.reset.isCustomized = false := rfl

/-- A command is customized unless the user has changed neither its keybinding nor its
when-clause. -/
theorem isCustomized_eq_false_iff (c : Command) :
    c.isCustomized = false ↔ c.unbound = false ∧ c.customKeys = none ∧ c.customWhen = none := by
  rw [isCustomized, Bool.or_eq_false_iff, Bool.or_eq_false_iff, Option.isSome_eq_false_iff,
    Option.isSome_eq_false_iff, Option.isNone_iff_eq_none, Option.isNone_iff_eq_none, and_assoc]

/-- The keybinding of a command that is not customized is the default one. -/
theorem effectiveKeys_of_not_isCustomized {c : Command} (h : c.isCustomized = false) :
    c.effectiveKeys = c.defaultKeys := by
  obtain ⟨hunbound, hkeys, -⟩ := c.isCustomized_eq_false_iff.mp h
  rw [effectiveKeys, hunbound, hkeys, Option.none_or]
  rfl

/-- The when-clause of a command that is not customized is the default one. -/
theorem effectiveWhen_of_not_isCustomized {c : Command} (h : c.isCustomized = false) :
    c.effectiveWhen = c.defaultWhen := by
  obtain ⟨-, -, hwhen⟩ := c.isCustomized_eq_false_iff.mp h
  rw [effectiveWhen, hwhen, Option.none_or]

@[simp]
theorem id_reset (c : Command) : c.reset.id = c.id := rfl

@[simp]
theorem id_withKeys (keys : Option Keybinding) (c : Command) : (c.withKeys keys).id = c.id := rfl

@[simp]
theorem id_withWhen (clause : Option When.Clause) (c : Command) :
    (c.withWhen clause).id = c.id := rfl

@[simp]
theorem id_withoutKeys (c : Command) : c.withoutKeys.id = c.id := rfl

theorem effectiveKeys_reset (c : Command) : c.reset.effectiveKeys = c.defaultKeys := rfl

theorem effectiveKeys_withoutKeys (c : Command) : c.withoutKeys.effectiveKeys = none := rfl

end Command

end KeyChord
