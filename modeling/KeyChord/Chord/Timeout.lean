/-!
# Chord timeouts

How long a chord waits for its next keystroke. Times are whole numbers of ticks from a start that
does not matter, and a clock says how many of its ticks make a millisecond. Nothing depends on how
many there are, so that everything said of times holds of a clock of any precision.

- `Clock.clamp`: the timeout that is nearest to a time.
-/

namespace KeyChord

/-- How finely times are counted. -/
structure Clock where
  /-- The number of ticks in a millisecond. -/
  perMs : Nat
  /-- A tick is a millisecond or shorter. -/
  pos : 0 < perMs
  deriving DecidableEq

namespace Clock

/-- Times in whole milliseconds. -/
def milliseconds : Clock := ⟨1, by decide⟩

/-- Times in nanoseconds. -/
def nanoseconds : Clock := ⟨1000000, by decide⟩

end Clock

/-- A time that a chord may wait, within the range in which typing a chord is practical. A timeout
knows its clock, so that it cannot be taken for a time of another one. -/
structure Timeout where
  /-- The clock by which the chord waits. -/
  clock : Clock
  /-- The time in ticks of the clock. -/
  ticks : Nat
  /-- A chord waits for a tenth of a second or more. -/
  min_le : 100 * clock.perMs ≤ ticks
  /-- A chord waits for ten seconds or less. -/
  le_max : ticks ≤ 10000 * clock.perMs
  deriving DecidableEq

/-- The timeout that is nearest to a time. -/
def Clock.clamp (clock : Clock) (time : Nat) : Timeout :=
  ⟨clock, max (100 * clock.perMs) (min (10000 * clock.perMs) time), by omega, by omega⟩

/-- The timeout of so many milliseconds is the number of them in range, whatever the clock. -/
theorem Clock.ticks_clamp_mul (clock : Clock) (ms : Nat) :
    (clock.clamp (ms * clock.perMs)).ticks = max 100 (min 10000 ms) * clock.perMs := by
  change max (100 * clock.perMs) (min (10000 * clock.perMs) (ms * clock.perMs)) = _
  rw [Nat.mul_min_mul_right, Nat.mul_max_mul_right]

namespace Timeout

/-- A timeout is a time. -/
instance : CoeOut Timeout Nat := ⟨ticks⟩

/-- The whole milliseconds of a timeout. -/
def ms (t : Timeout) : Nat := t.ticks / t.clock.perMs

/-- The timeout of so many milliseconds, or the nearest one. -/
def clamp (ms : Nat) : Timeout := Clock.milliseconds.clamp ms

/-- The timeout that is used unless another is asked for. -/
def default : Timeout := clamp 750

instance : Inhabited Timeout := ⟨default⟩

/-- A timeout lasts for a while. -/
theorem ticks_pos (t : Timeout) : 0 < t.ticks := by
  have hperMs := t.clock.pos
  have hmin := t.min_le
  omega

/-- A time in range is left alone. -/
theorem clamp_ticks (t : Timeout) : t.clock.clamp t.ticks = t := by
  obtain ⟨clock, ticks, hmin, hmax⟩ := t
  simp only [Clock.clamp, mk.injEq, true_and]
  omega

end Timeout

/-- What happens to a keystroke that breaks a chord. -/
inductive BreakPolicy where
  /-- The keystroke is consumed together with the chord. -/
  | swallow
  /-- The keystroke is looked up again as if no chord had been pending. -/
  | reevaluate
  deriving DecidableEq, Inhabited, Repr

namespace BreakPolicy

/-- The word for a policy. -/
def word : BreakPolicy → String
  | swallow => "swallow"
  | reevaluate => "reevaluate"

/-- The policy that a word names. -/
def ofWord? (word : String) : Option BreakPolicy :=
  if word = "swallow" then some swallow
  else if word = "reevaluate" then some reevaluate
  else none

@[simp]
theorem ofWord?_word (policy : BreakPolicy) : ofWord? policy.word = some policy := by
  cases policy <;> rfl

end BreakPolicy

end KeyChord
