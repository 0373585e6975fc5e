import KeyChord.Chord.Machine
import KeyChord.Registry.Edit

/-!
# The resolver

The resolver joins a registry and a chord machine: keystrokes and contexts go in, and the names of
commands come out. The registry can be changed at any time, and changing it gives a pending chord
up, so that no chord goes on under keybindings that it was not started with.

A run is a list of events. `Resolver.step` says what one event does, `Resolver.run` what several do.
-/

namespace KeyChord

/-- What became of a keystroke. -/
structure Resolution where
  /-- Whether the keystroke was consumed. -/
  handled : Bool
  /-- The command to carry out. -/
  command : Option String
  deriving DecidableEq

/-- What an outcome of the chord machine means to the application. -/
def Resolution.ofOutcome : Chord.Outcome → Resolution
  | .unhandled => ⟨false, none⟩
  | .pending | .swallowed => ⟨true, none⟩
  | .fire id => ⟨true, some id⟩

/-- A registry and a chord machine over it. -/
structure Resolver where
  /-- The commands. -/
  registry : Registry
  /-- The machine. -/
  machine : Chord.Machine

namespace Resolver

/-- The resolver of a registry, with no chord pending. -/
def ofRegistry (registry : Registry) (timeout : Timeout) (policy : BreakPolicy) : Resolver :=
  ⟨registry, .idle timeout policy⟩

/-- A keystroke that arrives at the given time. -/
def handle (r : Resolver) (context : Context) (k : Keystroke) (now : Nat) :
    Resolution × Resolver :=
  let (outcome, machine) := r.machine.handle r.registry context k now
  (.ofOutcome outcome, { r with machine })

/-- Uses and changes the registry. A pending chord is given up, whatever the use comes to. -/
def withRegistry {α : Type} (r : Resolver) (use : Registry → α × Registry) : α × Resolver :=
  let (answer, registry) := use r.registry
  (answer, ⟨registry, r.machine.cancel⟩)

/-- Something that happens to a resolver. -/
inductive Event where
  /-- A keystroke arrives. -/
  | keystroke (k : Keystroke) (context : Context) (now : Nat)
  /-- The clock is read. -/
  | tick (now : Nat)
  /-- A timer hands its token back. -/
  | timer (token : Nat)
  /-- The pending chord is given up. -/
  | cancel
  /-- Recording starts or ends. -/
  | record (on : Bool)
  /-- Chords wait for another time. -/
  | setTimeout (time : Nat)
  /-- Keystrokes that break a chord are treated in another way. -/
  | setPolicy (policy : BreakPolicy)
  /-- The registry is edited. -/
  | edit (edits : List Registry.Edit)

/-- What an event answers. -/
inductive Answer where
  /-- What became of a keystroke. -/
  | resolution (resolution : Resolution)
  /-- Whether a pending chord was given up because of its time. -/
  | expired (given : Bool)
  /-- Nothing. -/
  | none
  deriving DecidableEq

/-- What an event answers, and the resolver after it. -/
def step (r : Resolver) : Event → Answer × Resolver
  | .keystroke k context now =>
    let (resolution, r) := r.handle context k now
    (.resolution resolution, r)
  | .tick now =>
    let (given, machine) := r.machine.expire now
    (.expired given, { r with machine })
  | .timer token =>
    let (given, machine) := r.machine.timerFired token
    (.expired given, { r with machine })
  | .cancel => (.none, { r with machine := r.machine.cancel })
  | .record on => (.none, { r with machine := r.machine.setRecording on })
  | .setTimeout time => (.none, { r with machine := r.machine.setTimeout time })
  | .setPolicy policy => (.none, { r with machine := r.machine.setPolicy policy })
  | .edit edits => (.none, (r.withRegistry fun registry => ((), registry.editAll edits)).2)

/-- What some events answer in turn, and the resolver after them. -/
def run (r : Resolver) : List Event → List Answer × Resolver
  | [] => ([], r)
  | event :: events =>
    let (answer, r) := r.step event
    let (answers, r) := r.run events
    (answer :: answers, r)

theorem run_cons (r : Resolver) (event : Event) (events : List Event) :
    r.run (event :: events) =
      ((r.step event).1 :: ((r.step event).2.run events).1, ((r.step event).2.run events).2) := rfl

theorem run_append (r : Resolver) (first second : List Event) :
    r.run (first ++ second) =
      ((r.run first).1 ++ ((r.run first).2.run second).1, ((r.run first).2.run second).2) := by
  induction first generalizing r with
  | nil => rfl
  | cons event events ih => simp only [List.cons_append, run_cons, ih]

end Resolver

end KeyChord
