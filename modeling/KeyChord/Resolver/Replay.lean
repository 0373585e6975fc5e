import KeyChord.Resolver.Basic
import KeyChord.Text.Columns

/-!
# Replaying keystrokes

Keystrokes are fed to a resolver one after another, in one context and at even distances in time,
and each is reported.
-/

namespace KeyChord.Resolver

/-- The report on one keystroke. -/
structure Report where
  /-- How the keystroke is shown. -/
  keystroke : String
  /-- What became of the keystroke. -/
  resolution : Resolution
  /-- How the chord is shown that is pending afterwards. -/
  pending : Option String
  deriving DecidableEq

/-- What a report says the keystroke came to. -/
def Report.outcomeText (report : Report) : String :=
  match report.resolution.command, report.pending with
  | some id, _ => "-> " ++ id
  | none, some chord => "pending (" ++ chord ++ ")"
  | none, none => if report.resolution.handled then "swallowed" else "unhandled"

/-- The line of a report: the keystroke in a column of twenty characters, and what it came to. -/
def Report.line (report : Report) : String :=
  Text.padRight 20 report.keystroke ++ " " ++ report.outcomeText

/-- The reports on keystrokes of which the first arrives at the given time and each further one
`delay` later, and the resolver afterwards. -/
def replay (r : Resolver) (context : Context) (delay now : Nat) :
    List Keystroke → List Report × Resolver
  | [] => ([], r)
  | k :: rest =>
    let (resolution, r) := r.handle context k now
    let report : Report := ⟨k.text, resolution, r.machine.indicator⟩
    let (reports, r) := r.replay context delay (now + delay) rest
    (report :: reports, r)

/-- There is one report for each keystroke. -/
theorem length_replay (r : Resolver) (context : Context) (delay now : Nat)
    (keystrokes : List Keystroke) :
    (r.replay context delay now keystrokes).1.length = keystrokes.length := by
  induction keystrokes generalizing r now with
  | nil => rfl
  | cons k rest ih => simp [replay, ih]

end KeyChord.Resolver
