import KeyChord.Proofs.Chord.Handling
import KeyChord.Proofs.Registry.Index
import KeyChord.Resolver.Basic
import Mathlib.Data.List.Chain

/-!
# The log of a run

The log of a run holds one entry for each event: the resolver to which it happened, the event and
what it answered.

The module introduces:

* `Resolver.log`: the entries of a run, whose answers are those of `Resolver.run`
  (`answers_log`).
* `Entry.keypress?`: the keystroke of an entry, with the time at which it arrived, the timeout that
  was in force then and what became of it.
* `Entry.Interrupts`: the entry puts an end to whatever chord is pending.
* `Event.onMachine`: what an event means to the machine of a resolver.
* `Resolver.Reachable`: the resolvers that runs lead to, from new ones over reachable registries.

A chord that no entry interrupts and no keystroke touches stays as it is (`machine_step`). Every
event leaves a reachable registry and a sound machine behind (`reachable_step`,
`sound_machine_step`), so that reachable resolvers have them (`Reachable.registry`,
`Reachable.sound`).
-/

namespace KeyChord.Resolver

/-- One event of a run. -/
structure Entry where
  /-- The resolver to which the event happened. -/
  before : Resolver
  /-- The event. -/
  event : Event
  /-- What the event answered. -/
  answer : Answer

/-- The entry for an event that happens to a resolver. -/
def entry (r : Resolver) (event : Event) : Entry :=
  ⟨r, event, (r.step event).1⟩

/-- The entries for some events that happen to a resolver one after another. -/
def log (r : Resolver) : List Event → List Entry
  | [] => []
  | event :: events => r.entry event :: (r.step event).2.log events

/-- The log tells what the run answers. -/
theorem answers_log (r : Resolver) (events : List Event) :
    (r.log events).map Entry.answer = (r.run events).1 := by
  induction events generalizing r with
  | nil => rfl
  | cons event events ih =>
    rw [log, List.map_cons, ih]
    rfl

/-- A keystroke of a run. -/
structure Keypress where
  /-- The keystroke. -/
  key : Keystroke
  /-- The context in which it was looked up. -/
  context : Context
  /-- When it arrived. -/
  now : Nat
  /-- The timeout in force when it arrived. -/
  timeout : Timeout
  /-- What became of it. -/
  resolution : Resolution

namespace Entry

/-- The keystroke of an entry, if it is about one. -/
def keypress? (e : Entry) : Option Keypress :=
  match e.event, e.answer with
  | .keystroke k context now, .resolution resolution =>
    some ⟨k, context, now, e.before.machine.timeout, resolution⟩
  | _, _ => none

/-- The entry puts an end to a pending chord: it is a cancellation, the start of a recording or an
access to the registry, or the time of the chord is over. -/
def Interrupts (e : Entry) : Prop :=
  match e.event with
  | .keystroke .. | .setTimeout _ | .setPolicy _ => False
  | .tick _ | .timer _ => e.answer = .expired true
  | .record on => on = true
  | .cancel | .edit _ => True

end Entry

/-- The keystrokes of some entries. -/
def keypresses (entries : List Entry) : List Keypress :=
  entries.filterMap Entry.keypress?

variable {r : Resolver}

/-- An event that is a keystroke makes an entry with this keystroke. -/
theorem keypress?_entry_keystroke (k : Keystroke) (context : Context) (now : Nat) :
    (r.entry (.keystroke k context now)).keypress? =
      some ⟨k, context, now, r.machine.timeout, (r.handle context k now).1⟩ := rfl

/-- Only keystrokes make entries with keystrokes. -/
theorem exists_of_keypress?_entry {event : Event} {p : Keypress}
    (hp : (r.entry event).keypress? = some p) :
    event = .keystroke p.key p.context p.now ∧ p.timeout = r.machine.timeout ∧
      p.resolution = (r.handle p.context p.key p.now).1 := by
  cases event with
  | keystroke k context now =>
    rw [keypress?_entry_keystroke] at hp
    cases hp
    exact ⟨rfl, rfl, rfl⟩
  | _ => cases hp

/-- An event that is no keystroke and interrupts nothing leaves the chord and its timer alone; one
that interrupts leaves an idle machine. -/
theorem machine_step (event : Event) (hkey : (r.entry event).keypress? = none) :
    ¬(r.entry event).Interrupts ∧ (r.step event).2.machine.pending = r.machine.pending ∧
        (r.step event).2.machine.timer = r.machine.timer ∨
      (r.entry event).Interrupts ∧ (r.step event).2.machine.pending = none := by
  -- Time and tokens interrupt only if they expire the chord; all else is read off the definitions.
  cases event with
  | keystroke k context now => cases hkey
  | tick now =>
    rw [Entry.Interrupts, entry, step]
    rcases Chord.Machine.expire_cases r.machine now with ⟨h, -⟩ | ⟨h, -⟩ <;> rw [h]
    · exact Or.inl ⟨fun hexpired => (by cases hexpired), rfl, rfl⟩
    · exact Or.inr ⟨rfl, rfl⟩
  | timer token =>
    rw [Entry.Interrupts, entry, step]
    rcases Chord.Machine.timerFired_cases r.machine token with h | h <;> rw [h]
    · exact Or.inl ⟨fun hexpired => (by cases hexpired), rfl, rfl⟩
    · exact Or.inr ⟨rfl, rfl⟩
  | cancel => exact Or.inr ⟨trivial, rfl⟩
  | record on =>
    cases on with
    | true => exact Or.inr ⟨rfl, rfl⟩
    | false => exact Or.inl ⟨Bool.false_ne_true, rfl, rfl⟩
  | setTimeout time => exact Or.inl ⟨id, rfl, rfl⟩
  | setPolicy policy => exact Or.inl ⟨id, rfl, rfl⟩
  | edit edits => exact Or.inr ⟨trivial, rfl⟩

/-- What an event means to the machine of a resolver over the registry: an edit of the registry
gives the pending chord up, and everything else is handed on. -/
def Event.onMachine (registry : Registry) : Event → Chord.Machine.Event
  | .keystroke k context now => .keystroke registry context k now
  | .tick now => .tick now
  | .timer token => .timer token
  | .cancel | .edit _ => .cancel
  | .record on => .record on
  | .setTimeout time => .setTimeout time
  | .setPolicy policy => .setPolicy policy

/-- An event does to the machine of a resolver what it means to the machine. -/
theorem machine_step_eq (r : Resolver) (event : Event) :
    (r.step event).2.machine = (r.machine.step (event.onMachine r.registry)).2 := by
  cases event <;> rfl

/-- Every event leaves a sound machine. -/
theorem sound_machine_step (h : r.machine.Sound) (event : Event) :
    (r.step event).2.machine.Sound := by
  rw [machine_step_eq]
  exact Chord.Machine.sound_step h _

/-- Every event leaves a reachable registry. -/
theorem reachable_step (h : r.registry.Reachable) (event : Event) :
    (r.step event).2.registry.Reachable := by
  cases event with
  | edit edits => exact h.editAll edits
  | _ => exact h

/-! ## Reachable resolvers -/

/-- The resolvers that come from a new one over a reachable registry by events. -/
inductive Reachable : Resolver → Prop
  | ofRegistry {registry : Registry} (timeout : Timeout) (policy : BreakPolicy) :
      registry.Reachable → Reachable (ofRegistry registry timeout policy)
  | step {r : Resolver} (event : Event) : Reachable r → Reachable (r.step event).2

namespace Reachable

/-- The registry of a reachable resolver is reachable. -/
theorem registry (h : r.Reachable) : r.registry.Reachable := by
  induction h with
  | ofRegistry timeout policy hregistry => exact hregistry
  | step event _ ih => exact reachable_step ih event

/-- The machine of a reachable resolver is sound. -/
theorem sound (h : r.Reachable) : r.machine.Sound := by
  induction h with
  | ofRegistry timeout policy => exact Chord.Machine.sound_idle timeout policy
  | step event _ ih => exact sound_machine_step ih event

/-- Runs lead from reachable resolvers to reachable resolvers. -/
theorem run (h : r.Reachable) (events : List Event) : (r.run events).2.Reachable := by
  induction events generalizing r with
  | nil => exact h
  | cons event events ih => exact ih (h.step event)

end Reachable

end KeyChord.Resolver
