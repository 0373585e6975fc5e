/-!
# Modifiers

The modifier keys that are held while a key goes down. Modifiers are always named in the order
Ctrl, Alt, Shift, Meta.

- `Modifiers.contains_iff_union_eq`: a set contains another when adding the other changes nothing.
-/

namespace KeyChord

/-- A set of modifier keys. -/
structure Modifiers where
  /-- The control key. -/
  ctrl : Bool := false
  /-- The alt or option key. -/
  alt : Bool := false
  /-- The shift key. -/
  shift : Bool := false
  /-- The command key or the key with the window. -/
  super : Bool := false
  deriving DecidableEq, Hashable, Repr

namespace Modifiers

/-- No modifier. -/
def none : Modifiers := {}

/-- The modifier that applications use for their commands. -/
def primary : Modifiers := { ctrl := true }

/-- The modifiers of either set. -/
def union (a b : Modifiers) : Modifiers :=
  ⟨a.ctrl || b.ctrl, a.alt || b.alt, a.shift || b.shift, a.super || b.super⟩

/-- Whether `a` holds every modifier of `b`. -/
def contains (a b : Modifiers) : Bool :=
  (a.ctrl || !b.ctrl) && (a.alt || !b.alt) && (a.shift || !b.shift) && (a.super || !b.super)

/-- Whether no modifier is held. -/
def isEmpty (a : Modifiers) : Bool :=
  !(a.ctrl || a.alt || a.shift || a.super)

/-- The names of the held modifiers. -/
def labels (a : Modifiers) : List String :=
  [(a.ctrl, "Ctrl"), (a.alt, "Alt"), (a.shift, "Shift"), (a.super, "Meta")].filterMap
    fun (held, label) => if held then some label else .none

/-- The names of the held modifiers, joined by plus signs. -/
def text (a : Modifiers) : String :=
  "+".intercalate a.labels

/-- A set contains another exactly if adding the other changes nothing. -/
theorem contains_iff_union_eq (a b : Modifiers) : a.contains b = true ↔ a.union b = a := by
  rcases a with ⟨_ | _, _ | _, _ | _, _ | _⟩ <;> rcases b with ⟨_ | _, _ | _, _ | _, _ | _⟩ <;>
    decide

end Modifiers

end KeyChord
