import KeyChord.Chord.Machine

/-!
# Runs of the chord machine

What happens to a machine, as data. Each keystroke brings the registry and the context that it is
looked up in, so that both may change from one keystroke to the next.

- `Machine.step`: what one event does.
- `Machine.run`: what several events do, one after another.
- `Machine.Event.ofStroke`: the arrival of a keystroke when the registry does not change.
-/

namespace KeyChord.Chord

/-- A keystroke in a context and at a time. -/
structure Stroke where
  /-- The keystroke. -/
  key : Keystroke
  /-- The context in which it is looked up. -/
  context : Context
  /-- When it arrives. -/
  now : Nat

namespace Machine

/-- Something that happens to a machine. -/
inductive Event where
  /-- A keystroke arrives. -/
  | keystroke (r : Registry) (context : Context) (k : Keystroke) (now : Nat)
  /-- The clock is read. -/
  | tick (now : Nat)
  /-- A timer hands its token back. -/
  | timer (token : Nat)
  /-- The pending chord is given up. -/
  | cancel
  /-- Recording starts or ends. -/
  | record (on : Bool)
  /-- Chords wait for another time. -/
  | setTimeout (time : Nat)
  /-- Keystrokes that break a chord are treated in another way. -/
  | setPolicy (policy : BreakPolicy)

/-- The arrival of a keystroke at a machine over a registry. -/
def Event.ofStroke (r : Registry) (s : Stroke) : Event :=
  .keystroke r s.context s.key s.now

/-- What an event answers. -/
inductive Answer where
  /-- What a keystroke came to. -/
  | outcome (outcome : Outcome)
  /-- Whether a pending chord was given up because of its time. -/
  | expired (given : Bool)
  /-- Nothing. -/
  | none
  deriving DecidableEq

/-- What an event answers, and the machine after it. -/
def step (m : Machine) : Event → Answer × Machine
  | .keystroke r context k now =>
    let (outcome, m) := m.handle r context k now
    (.outcome outcome, m)
  | .tick now =>
    let (given, m) := m.expire now
    (.expired given, m)
  | .timer token =>
    let (given, m) := m.timerFired token
    (.expired given, m)
  | .cancel => (.none, m.cancel)
  | .record on => (.none, m.setRecording on)
  | .setTimeout time => (.none, m.setTimeout time)
  | .setPolicy policy => (.none, m.setPolicy policy)

/-- What some events answer in turn, and the machine after them. -/
def run (m : Machine) : List Event → List Answer × Machine
  | [] => ([], m)
  | event :: events =>
    let (answer, m) := m.step event
    let (answers, m) := m.run events
    (answer :: answers, m)

theorem run_nil (m : Machine) : m.run [] = ([], m) := rfl

theorem run_cons (m : Machine) (event : Event) (events : List Event) :
    m.run (event :: events) =
      ((m.step event).1 :: ((m.step event).2.run events).1, ((m.step event).2.run events).2) := rfl

theorem run_append (m : Machine) (first second : List Event) :
    m.run (first ++ second) =
      ((m.run first).1 ++ ((m.run first).2.run second).1, ((m.run first).2.run second).2) := by
  induction first generalizing m with
  | nil => rfl
  | cons event events ih => simp only [List.cons_append, run_cons, ih]

/-- The machine after some events and one more. -/
theorem run_concat (m : Machine) (events : List Event) (event : Event) :
    (m.run (events ++ [event])).2 = ((m.run events).2.step event).2 := by
  rw [run_append, run_cons, run_nil]

end Machine

end KeyChord.Chord
