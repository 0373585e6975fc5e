import KeyChord.Command.Override
import Std.Data.HashMap

/-!
# The registry of commands

The registry holds the known commands in the order of their registration, which decides between
commands that want the same keys. A command that is registered again stays where it was. Two indices
stand beside the list: the position of each command, and the positions of the commands whose
effective keybinding starts with a given keystroke.
-/

namespace KeyChord

/-- The registered commands and their indices. -/
structure Registry where
  /-- The commands, in the order of registration. -/
  commands : List Command
  /-- The position of each command. -/
  positions : Std.HashMap String Nat
  /-- The positions, in increasing order, of the commands whose effective keybinding starts with
  the keystroke. -/
  byFirst : Std.HashMap Keystroke (List Nat)

namespace Registry

/-- The position of each command. -/
def indexPositions (commands : List Command) : Std.HashMap String Nat :=
  commands.zipIdx.foldl (fun index (c, i) => index.insert c.id i) ∅

/-- Adds a position under the first keystroke of a command. -/
def addFirst (index : Std.HashMap Keystroke (List Nat)) (c : Command) (i : Nat) :
    Std.HashMap Keystroke (List Nat) :=
  match c.effectiveKeys with
  | some kb => index.insert kb.first (index.getD kb.first [] ++ [i])
  | none => index

/-- The positions of the commands by the first keystroke of their effective keybinding. -/
def indexFirst (commands : List Command) : Std.HashMap Keystroke (List Nat) :=
  commands.zipIdx.foldl (fun index (c, i) => addFirst index c i) ∅

/-- The registry without commands. -/
def empty : Registry := ⟨[], ∅, ∅⟩

/-- The number of commands. -/
def size (r : Registry) : Nat :=
  r.commands.length

/-- The names of the commands. -/
def ids (r : Registry) : List String :=
  r.commands.map Command.id

/-- Whether a command is registered. -/
def contains (r : Registry) (id : String) : Bool :=
  r.positions.contains id

/-- The command of a name. -/
def get? (r : Registry) (id : String) : Option Command :=
  r.positions[id]?.bind (r.commands[·]?)

/-- Registers a command: at the end, or in place of the command of the same name. -/
def register (r : Registry) (c : Command) : Registry :=
  match r.positions[c.id]? with
  | some i =>
    let commands := r.commands.set i c
    ⟨commands, r.positions, indexFirst commands⟩
  | none =>
    let commands := r.commands ++ [c]
    ⟨commands, r.positions.insert c.id r.commands.length, indexFirst commands⟩

/-- The registry of some commands, registered in order. -/
def ofList (commands : List Command) : Registry :=
  commands.foldl register empty

/-- Removes a command: what was registered, and the registry without it. -/
def unregister? (r : Registry) (id : String) : Option (Command × Registry) := do
  let i ← r.positions[id]?
  let removed ← r.commands[i]?
  let commands := r.commands.eraseIdx i
  some (removed, ⟨commands, indexPositions commands, indexFirst commands⟩)

/-- Changes one command, if it is registered. -/
def modify? (r : Registry) (id : String) (change : Command → Command) : Option Registry := do
  let i ← r.positions[id]?
  let commands := r.commands.modify i change
  some ⟨commands, r.positions, indexFirst commands⟩

/-- Gives a command the user's keybinding, or takes it back. -/
def setKeys? (r : Registry) (id : String) (keys : Option Keybinding) : Option Registry :=
  r.modify? id (·.withKeys keys)

/-- Gives a command the user's when-clause, or takes it back. -/
def setWhen? (r : Registry) (id : String) (clause : Option When.Clause) : Option Registry :=
  r.modify? id (·.withWhen clause)

/-- Takes every keybinding away from a command. -/
def unbind? (r : Registry) (id : String) : Option Registry :=
  r.modify? id Command.withoutKeys

/-- Takes back whatever the user has changed of a command. -/
def reset? (r : Registry) (id : String) : Option Registry :=
  r.modify? id Command.reset

/-- Applies an override, if its command is registered. -/
def override? (r : Registry) (o : Override) : Option Registry :=
  r.modify? o.command o.apply

/-- Applies overrides in order and passes over those of unknown commands: how many were applied, and
the registry afterwards. -/
def overrideAll (r : Registry) (overrides : List Override) : Nat × Registry :=
  overrides.foldl (fun (applied, r) o =>
    match r.override? o with
    | some r => (applied + 1, r)
    | none => (applied, r)) (0, r)

end Registry

end KeyChord
