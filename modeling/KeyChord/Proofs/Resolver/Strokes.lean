import KeyChord.Chord.Run
import KeyChord.Resolver.Basic

/-!
# Runs of keystrokes

When nothing but keystrokes happens to a resolver, its registry stays what it is, and the resolver
answers what its machine does.

The module introduces:

* `Resolver.Fires r strokes id`: one of the keystrokes is answered with the command `id`. The
  machine then fires this command, and the other way round (`fires_iff`).
-/

namespace KeyChord.Resolver

/-- The arrival of a keystroke at a resolver. -/
def Event.ofStroke (s : Chord.Stroke) : Event :=
  .keystroke s.key s.context s.now

/-- One of the keystrokes is answered with the command. -/
def Fires (r : Resolver) (strokes : List Chord.Stroke) (id : String) : Prop :=
  ∃ resolution, Answer.resolution resolution ∈ (r.run (strokes.map .ofStroke)).1 ∧
    resolution.command = some id

/-- The application is told of a command exactly if the machine fires it. -/
theorem command_ofOutcome_eq_some_iff (outcome : Chord.Outcome) (id : String) :
    (Resolution.ofOutcome outcome).command = some id ↔ outcome = .fire id := by
  cases outcome <;> simp [Resolution.ofOutcome]

/-- Of some keystrokes, the first or a later one is answered with the command. -/
theorem fires_cons (r : Resolver) (s : Chord.Stroke) (strokes : List Chord.Stroke) (id : String) :
    r.Fires (s :: strokes) id ↔
      (r.handle s.context s.key s.now).1.command = some id ∨
        (r.handle s.context s.key s.now).2.Fires strokes id := by
  rw [Fires, Fires, List.map_cons, run_cons]
  have hanswer : (r.step (.ofStroke s)).1 = .resolution (r.handle s.context s.key s.now).1 := rfl
  have hrest : (r.step (.ofStroke s)).2 = (r.handle s.context s.key s.now).2 := rfl
  rw [hanswer, hrest]
  simp only [List.mem_cons, Answer.resolution.injEq, or_and_right, exists_or, exists_eq_left]

/-- A resolver answers a keystroke with a command exactly if its machine fires the command. -/
theorem fires_iff (r : Resolver) (strokes : List Chord.Stroke) (id : String) :
    r.Fires strokes id ↔
      Chord.Machine.Answer.outcome (.fire id) ∈
        (r.machine.run (strokes.map (.ofStroke r.registry))).1 := by
  induction strokes generalizing r with
  | nil => simp [Fires, run, Chord.Machine.run_nil]
  | cons s strokes ih =>
    rw [fires_cons, ih, List.map_cons, Chord.Machine.run_cons, List.mem_cons, handle,
      command_ofOutcome_eq_some_iff]
    refine or_congr_left ?_
    rw [Chord.Machine.Event.ofStroke, Chord.Machine.step, Chord.Machine.Answer.outcome.injEq]
    exact eq_comm

end KeyChord.Resolver
