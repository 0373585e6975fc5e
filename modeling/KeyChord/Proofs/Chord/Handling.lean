import KeyChord.Chord.Run

/-!
# What a keystroke can do to the chord machine

The chord and the timer of a machine are two fields that every operation has to keep together.

The module introduces:

* `Machine.Sound`: a chord is pending exactly while a timer runs, it has keystrokes, and there is
  none while recording. Every operation keeps a machine sound (`sound_step`, `sound_run`).
* `m.inTime now`: the pending keystrokes that a keystroke at `now` still goes with.
* `Machine.Handling`: everything that a keystroke can come to, case by case, with what must be the
  case for it. A sound machine handles every keystroke in one of these ways (`handling_handle`), so
  that later proofs need not unfold `Machine.handle`.
-/

namespace KeyChord.Chord.Machine

/-- A chord is pending exactly while a timer runs, has keystrokes, and does not go together with
recording. -/
structure Sound (m : Machine) : Prop where
  /-- A chord is pending exactly while a timer runs. -/
  timed : m.pending.isSome = m.timer.isSome
  /-- A pending chord has keystrokes. -/
  nonempty : ∀ chord ∈ m.pending, chord.keystrokes ≠ []
  /-- No chord is pending while recording. -/
  recording : m.recording = true → m.pending = none

/-- The keystrokes of the pending chord that a keystroke at the given time still goes with. -/
def inTime (m : Machine) (now : Nat) : List Keystroke :=
  (m.expire now).2.keystrokes

variable {m : Machine} {r : Registry} {context : Context} {k : Keystroke} {now : Nat}

/-! ## Expiry -/

/-- Reading the clock does nothing, or gives the pending chord up because its deadline has come. -/
theorem expire_cases (m : Machine) (now : Nat) :
    m.expire now = (false, m) ∧ (∀ timer ∈ m.timer, now < timer.deadline) ∨
      m.expire now = (true, m.cancel) ∧ ∃ timer ∈ m.timer, timer.deadline ≤ now := by
  rw [expire, deadline]
  cases htimer : m.timer with
  | none => exact Or.inl ⟨rfl, fun timer h => by cases h⟩
  | some timer =>
    rw [Option.map_some]
    by_cases hdue : timer.deadline ≤ now
    · exact Or.inr ⟨if_pos hdue, timer, rfl, hdue⟩
    · refine Or.inl ⟨if_neg hdue, fun timer' h => ?_⟩
      cases h
      exact Nat.lt_of_not_le hdue

/-- A token does nothing, or gives the pending chord up because it is that of the timer. -/
theorem timerFired_cases (m : Machine) (token : Nat) :
    m.timerFired token = (false, m) ∨ m.timerFired token = (true, m.cancel) := by
  rw [timerFired]
  split
  · exact Or.inr rfl
  · exact Or.inl rfl

/-- An idle machine has no keystrokes to go with. -/
theorem inTime_of_idle (hidle : m.pending = none) : m.inTime now = [] := by
  rw [inTime, keystrokes]
  rcases expire_cases m now with ⟨h, -⟩ | ⟨h, -⟩
  · rw [h, hidle]
    rfl
  · rw [h]
    rfl

/-- The pending keystrokes go with whatever arrives before the deadline. -/
theorem inTime_of_lt {chord : Pending} {timer : Timer} (hpending : m.pending = some chord)
    (htimer : m.timer = some timer) (hlt : now < timer.deadline) :
    m.inTime now = chord.keystrokes := by
  rw [inTime, keystrokes]
  rcases expire_cases m now with ⟨h, -⟩ | ⟨-, timer', htimer', hdue⟩
  · rw [h, hpending]
    rfl
  · rw [htimer] at htimer'
    cases htimer'
    omega

/-- Keystrokes to go with are those of the pending chord, and its deadline is still to come. -/
theorem Sound.exists_of_inTime_ne_nil (h : m.Sound) (hne : m.inTime now ≠ []) :
    ∃ chord timer, m.pending = some chord ∧ m.timer = some timer ∧ now < timer.deadline ∧
      m.inTime now = chord.keystrokes := by
  cases hpending : m.pending with
  | none => exact absurd (inTime_of_idle hpending) hne
  | some chord =>
    obtain ⟨timer, htimer⟩ : ∃ timer, m.timer = some timer := by
      rw [← Option.isSome_iff_exists, ← h.timed, hpending]
      rfl
    have hlt : now < timer.deadline := by
      rcases expire_cases m now with ⟨-, hlt⟩ | ⟨hexpire, -⟩
      · exact hlt timer htimer
      · rw [inTime, hexpire] at hne
        exact absurd rfl hne
    exact ⟨chord, timer, rfl, htimer, hlt, inTime_of_lt hpending htimer hlt⟩

/-! ## Soundness -/

/-- A machine without a chord and a timer is sound. -/
theorem sound_of_idle (hpending : m.pending = none) (htimer : m.timer = none) : m.Sound where
  timed := by rw [hpending, htimer]; rfl
  nonempty chord h := by rw [hpending] at h; cases h
  recording _ := hpending

/-- A new machine is sound. -/
theorem sound_idle (timeout : Timeout) (policy : BreakPolicy) : (idle timeout policy).Sound :=
  sound_of_idle rfl rfl

/-- Giving the pending chord up leaves a sound machine, whatever it was before. -/
theorem sound_cancel (m : Machine) : m.cancel.Sound :=
  sound_of_idle rfl rfl

/-- Making some keystrokes a pending chord leaves a sound machine. -/
theorem sound_await {sequence : List Keystroke} (hne : sequence ≠ [])
    (hrecording : m.recording = false) : (m.await sequence now).Sound where
  timed := rfl
  nonempty chord h := by cases h; exact hne
  recording h := by
    rw [show (m.await sequence now).recording = m.recording from rfl, hrecording] at h
    cases h

/-- No timer runs while no chord is pending. -/
theorem Sound.timer_eq_none (h : m.Sound) (hidle : m.pending = none) : m.timer = none := by
  rw [← Option.not_isSome_iff_eq_none, ← h.timed, hidle]
  exact Bool.false_ne_true

/-- Giving up the chord of a machine that has neither chord nor timer changes nothing. -/
theorem Sound.cancel_eq_self (h : m.Sound) (hidle : m.pending = none) : m.cancel = m := by
  have htimer := h.timer_eq_none hidle
  rcases m with ⟨pending, timer, armed, timeout, policy, recording⟩
  subst hidle htimer
  rfl

/-! ## The ways to handle a keystroke -/

/-- The keystroke breaks the pending chord: it arrives in time, but no active command is bound to
the sequence or goes on after it. -/
structure Breaks (m : Machine) (r : Registry) (context : Context) (k : Keystroke) (now : Nat) :
    Prop where
  /-- The keystroke arrives in time. -/
  in_time : m.inTime now ≠ []
  /-- The sequence triggers nothing. -/
  no_exact : r.firstExact? (m.inTime now ++ [k]) context = none
  /-- Nothing goes on after the sequence. -/
  no_extension : r.hasExtension (m.inTime now ++ [k]) context = false

/-- The keystroke is looked up behind the keystrokes `typed`: those of the pending chord, or none
if the keystroke breaks the chord and is looked up again. -/
def LooksUp (m : Machine) (r : Registry) (context : Context) (k : Keystroke) (now : Nat)
    (typed : List Keystroke) : Prop :=
  typed = m.inTime now ∨ typed = [] ∧ m.policy = .reevaluate ∧ m.Breaks r context k now

/-- What a keystroke can come to, and the machine afterwards. -/
inductive Handling (m : Machine) (r : Registry) (context : Context) (k : Keystroke) (now : Nat) :
    Outcome × Machine → Prop
  /-- While recording, keystrokes do not get to the machine. -/
  | recorded (hrecording : m.recording = true) : Handling m r context k now (.unhandled, m)
  /-- The sequence triggers a command. A single keystroke does so only if it starts no chord. -/
  | fires {typed : List Keystroke} {c : Command} (hrecording : m.recording = false)
      (htyped : m.LooksUp r context k now typed)
      (hexact : r.firstExact? (typed ++ [k]) context = some c)
      (hsingle : typed = [] → r.hasExtension [k] context = false) :
      Handling m r context k now (.fire c.id, m.cancel)
  /-- The sequence is the start of a keybinding. In a chord, it also triggers nothing. -/
  | waits {typed : List Keystroke} (hrecording : m.recording = false)
      (htyped : m.LooksUp r context k now typed)
      (hextension : r.hasExtension (typed ++ [k]) context = true)
      (hchord : typed ≠ [] → r.firstExact? (typed ++ [k]) context = none) :
      Handling m r context k now (.pending, m.await (typed ++ [k]) now)
  /-- The keystroke breaks the chord and is consumed. -/
  | breaks (hrecording : m.recording = false) (hpolicy : m.policy = .swallow)
      (hbreaks : m.Breaks r context k now) : Handling m r context k now (.swallowed, m.cancel)
  /-- The keystroke means nothing by itself. -/
  | misses (hrecording : m.recording = false) (htyped : m.LooksUp r context k now [])
      (hexact : r.firstExact? [k] context = none)
      (hextension : r.hasExtension [k] context = false) :
      Handling m r context k now (.unhandled, m.cancel)

/-- A sound machine takes the keystrokes in time and looks the keystroke up behind them. -/
theorem Sound.handle_eq (h : m.Sound) (hrecording : m.recording = false) :
    m.handle r context k now =
      if m.inTime now = [] then m.cancel.start r context k now
      else m.cancel.resume (m.inTime now) r context k now := by
  rw [handle, hrecording, inTime, keystrokes]
  rcases expire_cases m now with ⟨hexpire, -⟩ | ⟨hexpire, -⟩
  · rw [hexpire]
    -- Only a pending chord without keystrokes would be taken for none.
    cases hpending : m.pending with
    | none =>
      rw [h.cancel_eq_self hpending]
      simp [hpending]
    | some chord =>
      have hne := h.nonempty chord hpending
      simp only [hpending, Option.elim_some, hne, if_false]
      rfl
  · rw [hexpire]
    rfl

/-- A keystroke that is looked up by itself is handled in one of the ways. -/
theorem handling_start (hrecording : m.recording = false) (htyped : m.LooksUp r context k now []) :
    Handling m r context k now (m.cancel.start r context k now) := by
  rw [start]
  -- Extensions are asked for first, so that the start of a chord is preferred.
  cases hextension : r.hasExtension [k] context with
  | true => exact .waits hrecording htyped hextension (absurd rfl)
  | false =>
    cases hexact : r.firstExact? [k] context with
    | none => exact .misses hrecording htyped hexact hextension
    | some c => exact .fires hrecording htyped hexact fun _ => hextension

/-- A sound machine handles every keystroke in one of the ways. -/
theorem handling_handle (h : m.Sound) (r : Registry) (context : Context) (k : Keystroke)
    (now : Nat) : Handling m r context k now (m.handle r context k now) := by
  cases hrecording : m.recording with
  | true =>
    rw [handle, hrecording]
    exact .recorded hrecording
  | false =>
    rw [h.handle_eq hrecording]
    by_cases hnil : m.inTime now = []
    · rw [if_pos hnil]
      exact handling_start hrecording (Or.inl hnil.symm)
    · rw [if_neg hnil, resume]
      -- Inside a chord, exact matches are asked for before extensions.
      cases hexact : r.firstExact? (m.inTime now ++ [k]) context with
      | some c => exact .fires hrecording (Or.inl rfl) hexact (absurd · hnil)
      | none =>
        cases hextension : r.hasExtension (m.inTime now ++ [k]) context with
        | true => exact .waits hrecording (Or.inl rfl) hextension fun _ => hexact
        | false =>
          have hbreaks : m.Breaks r context k now := ⟨hnil, hexact, hextension⟩
          have hsame : m.cancel.disarm.policy = m.policy := rfl
          simp only [Bool.false_eq_true, if_false, hsame]
          cases hpolicy : m.policy with
          | swallow => exact .breaks hrecording hpolicy hbreaks
          | reevaluate => exact handling_start hrecording (Or.inr ⟨rfl, hpolicy, hbreaks⟩)

/-- A keystroke that leads to the start of a keybinding makes or keeps a chord pending. -/
theorem Sound.handle_waits (h : m.Sound) (hrecording : m.recording = false)
    (hextension : r.hasExtension (m.inTime now ++ [k]) context = true)
    (hchord : m.inTime now ≠ [] → r.firstExact? (m.inTime now ++ [k]) context = none) :
    m.handle r context k now = (.pending, m.await (m.inTime now ++ [k]) now) := by
  rw [h.handle_eq hrecording]
  by_cases hnil : m.inTime now = []
  · rw [hnil, List.nil_append] at hextension ⊢
    rw [if_pos rfl, start, if_pos hextension]
    rfl
  · rw [if_neg hnil, resume]
    simp only [hchord hnil, hextension, if_true]
    rfl

/-- A keystroke that completes a sequence fires its command. -/
theorem Sound.handle_fires (h : m.Sound) (hrecording : m.recording = false) {c : Command}
    (hexact : r.firstExact? (m.inTime now ++ [k]) context = some c)
    (hsingle : m.inTime now = [] → r.hasExtension [k] context = false) :
    m.handle r context k now = (.fire c.id, m.cancel) := by
  rw [h.handle_eq hrecording]
  by_cases hnil : m.inTime now = []
  · rw [hnil, List.nil_append] at hexact
    rw [if_pos hnil, start, hsingle hnil, if_neg Bool.false_ne_true, hexact]
  · rw [if_neg hnil, resume]
    simp only [hexact]
    rfl

/-! ## Runs keep a machine sound -/

/-- A sound machine stays sound when it handles a keystroke. -/
theorem sound_handle (h : m.Sound) (r : Registry) (context : Context) (k : Keystroke)
    (now : Nat) : (m.handle r context k now).2.Sound := by
  have hhandling := handling_handle h r context k now
  generalize m.handle r context k now = after at hhandling ⊢
  cases hhandling with
  | recorded => exact h
  | fires => exact sound_cancel m
  | waits hrecording => exact sound_await (by simp) hrecording
  | breaks => exact sound_cancel m
  | misses => exact sound_cancel m

/-- Every event keeps a machine sound. -/
theorem sound_step (h : m.Sound) (event : Event) : (m.step event).2.Sound := by
  cases event with
  | keystroke r context k now => exact sound_handle h r context k now
  | tick now =>
    rcases expire_cases m now with ⟨hexpire, -⟩ | ⟨hexpire, -⟩ <;> rw [step, hexpire]
    · exact h
    · exact sound_cancel m
  | timer token =>
    rcases timerFired_cases m token with hfired | hfired <;> rw [step, hfired]
    · exact h
    · exact sound_cancel m
  | cancel => exact sound_cancel m
  | record on =>
    cases on with
    | true => exact ⟨rfl, fun _ hchord => (by cases hchord), fun _ => rfl⟩
    | false => exact ⟨h.timed, h.nonempty, fun hrecording => (by cases hrecording)⟩
  | setTimeout time => exact ⟨h.timed, h.nonempty, h.recording⟩
  | setPolicy policy => exact ⟨h.timed, h.nonempty, h.recording⟩

/-- Every run keeps a machine sound. -/
theorem sound_run (h : m.Sound) (events : List Event) : (m.run events).2.Sound := by
  induction events generalizing m with
  | nil => exact h
  | cons event events ih => exact ih (sound_step h event)

end KeyChord.Chord.Machine
