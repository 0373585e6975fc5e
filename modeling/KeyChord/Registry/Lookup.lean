import KeyChord.Registry.Basic

/-!
# Looking up commands

Which commands a sequence of keystrokes triggers or may yet trigger, in the order of registration.
Commands that are not active in the context at hand are passed over, except by
`Registry.conflicts`, which asks about keys alone.
-/

namespace KeyChord.Registry

/-- The commands whose effective keybinding starts with the first keystroke of the sequence. -/
def candidates (r : Registry) (sequence : List Keystroke) : List Command :=
  match sequence with
  | [] => []
  | first :: _ => (r.byFirst.getD first []).filterMap (r.commands[·]?)

/-- Whether the command is triggered by the sequence. -/
def triggers (sequence : List Keystroke) (context : Context) (c : Command) : Bool :=
  c.effectiveKeys.any (·.isExactly sequence) && c.isEnabled context

/-- Whether the command waits for more after the sequence. -/
def awaits (sequence : List Keystroke) (context : Context) (c : Command) : Bool :=
  c.effectiveKeys.any (·.properlyExtends sequence) && c.isEnabled context

/-- The active commands that the sequence triggers. -/
def exactMatches (r : Registry) (sequence : List Keystroke) (context : Context) : List Command :=
  (r.candidates sequence).filter (triggers sequence context)

/-- The active commands whose keybinding goes on after the sequence. -/
def extensions (r : Registry) (sequence : List Keystroke) (context : Context) : List Command :=
  (r.candidates sequence).filter (awaits sequence context)

/-- The first registered of the active commands that the sequence triggers. -/
def firstExact? (r : Registry) (sequence : List Keystroke) (context : Context) :
    Option Command :=
  (r.candidates sequence).find? (triggers sequence context)

/-- Whether an active command has a keybinding that goes on after the sequence. -/
def hasExtension (r : Registry) (sequence : List Keystroke) (context : Context) : Bool :=
  (r.candidates sequence).any (awaits sequence context)

/-- The commands whose keybinding gets in the way of the given one: it is the same, or one of the
two starts with the other. -/
def conflicts (r : Registry) (keys : Keybinding) : List Command :=
  (r.candidates keys.keystrokes).filter fun c =>
    c.effectiveKeys.any fun kb =>
      kb.startsWith keys.keystrokes || keys.startsWith kb.keystrokes

/-- The categories, in the order of their first command. -/
def categories (r : Registry) : List String :=
  (r.commands.map Command.category).eraseDups

/-- The commands of a category. -/
def inCategory (r : Registry) (category : String) : List Command :=
  r.commands.filter (·.category == category)

/-- The effective keybinding of a command. -/
def keysOf? (r : Registry) (id : String) : Option Keybinding :=
  (r.get? id).bind Command.effectiveKeys

/-- How the effective keybinding of a command is shown. -/
def keysTextOf? (r : Registry) (id : String) : Option String :=
  (r.keysOf? id).map Keybinding.text

/-- The first command that a sequence triggers is the first of all that it triggers. -/
theorem firstExact?_eq_head? (r : Registry) (sequence : List Keystroke) (context : Context) :
    r.firstExact? sequence context = (r.exactMatches sequence context).head? :=
  List.head?_filter.symm

/-- A keybinding goes on after a sequence exactly if some command waits for more. -/
theorem hasExtension_iff (r : Registry) (sequence : List Keystroke) (context : Context) :
    r.hasExtension sequence context = true ↔ r.extensions sequence context ≠ [] := by
  simp [hasExtension, extensions, List.filter_eq_nil_iff]

end KeyChord.Registry
