import KeyChord.Chord.Timeout
import KeyChord.Registry.Lookup

/-!
# The chord machine

The machine follows the keystrokes of a chord. It is idle, or a chord is pending: some keystrokes
have been typed that an active keybinding goes on from. Each keystroke that makes or keeps a chord
pending arms a timer, with a new token and a deadline; the chord is given up when a keystroke or a
clock reading arrives at the deadline or later, or when the live token is handed back. The timer
stands beside the chord, and nothing but the operations keeps the two together.

A single keystroke that starts a chord starts it even if it is a keybinding too; inside a chord it
is the other way round, and the shorter keybinding wins.
-/

namespace KeyChord

namespace Chord

/-- A chord that waits for its next keystroke. -/
structure Pending where
  /-- The keystrokes typed so far. -/
  keystrokes : List Keystroke
  deriving DecidableEq

/-- A timer that has been armed. -/
structure Timer where
  /-- The token by which the timer is known. -/
  token : Nat
  /-- When the chord is given up, in ticks of the clock of the timeout. -/
  deadline : Nat
  deriving DecidableEq

/-- What a keystroke came to. -/
inductive Outcome where
  /-- The keystroke is not for the machine. -/
  | unhandled
  /-- The keystroke started or continued a chord. -/
  | pending
  /-- The keystroke triggered the command. -/
  | fire (id : String)
  /-- The keystroke broke a chord and was consumed. -/
  | swallowed
  deriving DecidableEq

/-- The state of the machine. -/
structure Machine where
  /-- The pending chord, unless the machine is idle. -/
  pending : Option Pending := none
  /-- The timer that is running, if one is. -/
  timer : Option Timer := none
  /-- The number of timers armed so far, which is the token of the latest. -/
  armed : Nat := 0
  /-- How long a chord waits for its next keystroke. -/
  timeout : Timeout := default
  /-- What happens to a keystroke that breaks a chord. -/
  policy : BreakPolicy := default
  /-- Whether keystrokes are being recorded, which keeps them from the machine. -/
  recording : Bool := false
  deriving DecidableEq

namespace Machine

/-- An idle machine. -/
def idle (timeout : Timeout) (policy : BreakPolicy) : Machine := { timeout, policy }

/-- Whether a chord is pending. -/
def isActive (m : Machine) : Bool :=
  m.pending.isSome

/-- The keystrokes of the pending chord; none when idle. -/
def keystrokes (m : Machine) : List Keystroke :=
  m.pending.elim [] Pending.keystrokes

/-- How the pending chord is shown. -/
def indicator (m : Machine) : Option String :=
  m.pending.map (Keystroke.sequenceText ·.keystrokes)

/-- When the pending chord is given up. -/
def deadline (m : Machine) : Option Nat :=
  m.timer.map (·.deadline)

/-- The token of the live timer. -/
def token (m : Machine) : Option Nat :=
  m.timer.map (·.token)

/-- Stops the timer. -/
def disarm (m : Machine) : Machine :=
  { m with timer := none }

/-- Gives the pending chord up. -/
def cancel (m : Machine) : Machine :=
  { m.disarm with pending := none }

/-- Makes the keystrokes a pending chord, with a new timer. -/
def await (m : Machine) (keystrokes : List Keystroke) (now : Nat) : Machine :=
  { m with
    pending := some ⟨keystrokes⟩
    timer := some ⟨m.armed + 1, now + m.timeout.ticks⟩
    armed := m.armed + 1 }

/-- Gives the pending chord up if its deadline has come; whether it was given up. -/
def expire (m : Machine) (now : Nat) : Bool × Machine :=
  match m.deadline with
  | some deadline => if deadline ≤ now then (true, m.cancel) else (false, m)
  | none => (false, m)

/-- Gives the pending chord up if the token is that of its timer; whether it was given up. -/
def timerFired (m : Machine) (token : Nat) : Bool × Machine :=
  if m.token = some token then (true, m.cancel) else (false, m)

/-- Starts or ends recording. A chord that is pending when recording starts is given up. -/
def setRecording (m : Machine) (on : Bool) : Machine :=
  if on then { m.cancel with recording := true } else { m with recording := false }

/-- Sets how long chords wait: the given time, or the nearest one in range. It applies to timers
that are armed later. -/
def setTimeout (m : Machine) (time : Nat) : Machine :=
  { m with timeout := m.timeout.clock.clamp time }

/-- Sets what happens to a keystroke that breaks a chord. -/
def setPolicy (m : Machine) (policy : BreakPolicy) : Machine :=
  { m with policy }

/-- A keystroke while no chord is pending. -/
def start (m : Machine) (r : Registry) (context : Context) (k : Keystroke) (now : Nat) :
    Outcome × Machine :=
  if r.hasExtension [k] context then (.pending, m.await [k] now)
  else
    match r.firstExact? [k] context with
    | some c => (.fire c.id, m)
    | none => (.unhandled, m)

/-- A keystroke after those of a chord that was pending and has just been taken from the machine. -/
def resume (m : Machine) (typed : List Keystroke) (r : Registry) (context : Context)
    (k : Keystroke) (now : Nat) : Outcome × Machine :=
  let m := m.disarm
  let sequence := typed ++ [k]
  match r.firstExact? sequence context with
  | some c => (.fire c.id, m)
  | none =>
    if r.hasExtension sequence context then (.pending, m.await sequence now)
    else
      -- The keystroke breaks the chord.
      match m.policy with
      | .swallow => (.swallowed, m)
      | .reevaluate => m.start r context k now

/-- A keystroke that arrives at the given time. -/
def handle (m : Machine) (r : Registry) (context : Context) (k : Keystroke) (now : Nat) :
    Outcome × Machine :=
  if m.recording then (.unhandled, m)
  else
    -- A chord may have run out of time although nobody has told the machine.
    let m := (m.expire now).2
    match m.pending with
    | none => m.start r context k now
    | some chord => { m with pending := none }.resume chord.keystrokes r context k now

theorem pending_cancel (m : Machine) : m.cancel.pending = none := rfl

theorem cancel_cancel (m : Machine) : m.cancel.cancel = m.cancel := rfl

end Machine

end Chord

end KeyChord
