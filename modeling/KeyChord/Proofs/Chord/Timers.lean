import KeyChord.Proofs.Chord.Handling
import KeyChord.Proofs.Registry.Scan

/-!
# The timers of a chord machine

The module introduces:

* `m.timers events`: the timers that are armed in a run, in order.
* `timeoutAfter timeout events`: how long chords wait after the events.
* `Machine.Consistent`: how the chord, the timer and the counter of a machine belong together after
  a run, and what the next keystroke can make of them.

What an event can do to the timer is said once, in `step_timer_cases`, and what it does to the
counter in `armed_step`. The main statement is `consistent_run`. The counter is a number without a
bound here, and is the number of timers that have been armed: one of 64 bits counts alike in every
run that arms fewer than `2 ^ 64` timers.
-/

namespace KeyChord.Chord.Machine

/-- The event is the arrival of a keystroke. -/
def Event.IsKeystroke : Event → Prop
  | .keystroke _ _ _ _ => True
  | _ => False

/-- How long chords wait after the event, if they waited for the given time before. -/
def Event.timeoutAfter (timeout : Timeout) : Event → Timeout
  | .setTimeout time => timeout.clock.clamp time
  | _ => timeout

/-- How long chords wait after some events. -/
def timeoutAfter (timeout : Timeout) (events : List Event) : Timeout :=
  events.foldl Event.timeoutAfter timeout

/-- The timer that an event arms: the one that runs after the event, unless it ran before. -/
def armedBy (m : Machine) (event : Event) : Option Timer :=
  if (m.step event).2.timer = m.timer then none else (m.step event).2.timer

/-- The timers that are armed in a run, in order. -/
def timers (m : Machine) : List Event → List Timer
  | [] => []
  | event :: events => (m.armedBy event).toList ++ (m.step event).2.timers events

/-- The timer belongs to the last keystroke of the chord, which is the last one that has arrived:
its deadline is that arrival and the time that chords waited for then. -/
def ArmedAt (timeout : Timeout) (events : List Event) (keystrokes : List Keystroke)
    (timer : Timer) : Prop :=
  ∃ (before after : List Event) (r : Registry) (context : Context) (k : Keystroke) (now : Nat),
    events = before ++ .keystroke r context k now :: after ∧ (∀ event ∈ after, ¬event.IsKeystroke) ∧
      keystrokes.getLast? = some k ∧ timer.deadline = now + (timeoutAfter timeout before).ticks

variable {m : Machine} {r : Registry} {context : Context} {k : Keystroke} {now : Nat}

/-! ## One event -/

/-- An event arms a new timer, or it stops the timer with the chord, or it leaves both as they are.
Only keystrokes arm timers, and no keystroke leaves a timer running. -/
theorem step_timer_cases (h : m.Sound) (event : Event) :
    (∃ r context k now typed, event = .keystroke r context k now ∧
        (m.step event).2 = m.await (typed ++ [k]) now) ∨
      ((m.step event).2.pending = none ∧ (m.step event).2.timer = none ∧
        (m.step event).2.armed = m.armed) ∨
      (¬event.IsKeystroke ∧ (m.step event).2.pending = m.pending ∧
        (m.step event).2.timer = m.timer ∧ (m.step event).2.armed = m.armed) := by
  cases event with
  | keystroke r context k now =>
    have hhandling := handling_handle h r context k now
    have hstep : (m.step (.keystroke r context k now)).2 = (m.handle r context k now).2 := rfl
    rw [hstep]
    generalize m.handle r context k now = after at hhandling ⊢
    cases hhandling with
    | recorded hrecording =>
      -- Recorded keystrokes find no chord, so that there is no timer either.
      have hidle := h.recording hrecording
      exact Or.inr (Or.inl ⟨hidle, h.timer_eq_none hidle, rfl⟩)
    | waits => exact Or.inl ⟨r, context, k, now, _, rfl, rfl⟩
    | fires => exact Or.inr (Or.inl ⟨rfl, rfl, rfl⟩)
    | breaks => exact Or.inr (Or.inl ⟨rfl, rfl, rfl⟩)
    | misses => exact Or.inr (Or.inl ⟨rfl, rfl, rfl⟩)
  | tick now =>
    rcases expire_cases m now with ⟨hexpire, -⟩ | ⟨hexpire, -⟩ <;> rw [step, hexpire]
    · exact Or.inr (Or.inr ⟨id, rfl, rfl, rfl⟩)
    · exact Or.inr (Or.inl ⟨rfl, rfl, rfl⟩)
  | timer token =>
    rcases timerFired_cases m token with hfired | hfired <;> rw [step, hfired]
    · exact Or.inr (Or.inr ⟨id, rfl, rfl, rfl⟩)
    · exact Or.inr (Or.inl ⟨rfl, rfl, rfl⟩)
  | cancel => exact Or.inr (Or.inl ⟨rfl, rfl, rfl⟩)
  | record on =>
    cases on with
    | true => exact Or.inr (Or.inl ⟨rfl, rfl, rfl⟩)
    | false => exact Or.inr (Or.inr ⟨id, rfl, rfl, rfl⟩)
  | setTimeout time => exact Or.inr (Or.inr ⟨id, rfl, rfl, rfl⟩)
  | setPolicy policy => exact Or.inr (Or.inr ⟨id, rfl, rfl, rfl⟩)

/-- No event but the one that sets the timeout changes it. -/
theorem timeout_step (h : m.Sound) (event : Event) :
    (m.step event).2.timeout = event.timeoutAfter m.timeout := by
  cases event with
  | keystroke r context k now =>
    have hhandling := handling_handle h r context k now
    change (m.handle r context k now).2.timeout = m.timeout
    generalize m.handle r context k now = after at hhandling ⊢
    cases hhandling <;> rfl
  | tick now =>
    rcases expire_cases m now with ⟨hexpire, -⟩ | ⟨hexpire, -⟩ <;> rw [step, hexpire] <;> rfl
  | timer token =>
    rcases timerFired_cases m token with hfired | hfired <;> rw [step, hfired] <;> rfl
  | record on => cases on <;> rfl
  | cancel => rfl
  | setTimeout time => rfl
  | setPolicy policy => rfl

/-- The counter goes up exactly if a keystroke is answered as pending. -/
theorem armed_step (h : m.Sound) (event : Event) :
    (m.step event).2.armed =
      m.armed + if (m.step event).1 == .outcome .pending then 1 else 0 := by
  cases event with
  | keystroke r context k now =>
    have hhandling := handling_handle h r context k now
    change (m.handle r context k now).2.armed =
      m.armed + if Answer.outcome (m.handle r context k now).1 == .outcome .pending then 1 else 0
    generalize m.handle r context k now = after at hhandling ⊢
    cases hhandling <;> rfl
  | tick now =>
    rcases expire_cases m now with ⟨hexpire, -⟩ | ⟨hexpire, -⟩ <;> rw [step, hexpire] <;> rfl
  | timer token =>
    rcases timerFired_cases m token with hfired | hfired <;> rw [step, hfired] <;> rfl
  | record on => cases on <;> rfl
  | cancel => rfl
  | setTimeout time => rfl
  | setPolicy policy => rfl

/-- The live timer is the last one that was armed. -/
def Live (m : Machine) : Prop :=
  ∀ timer ∈ m.timer, timer.token = m.armed

/-- An event arms at most one timer, whose token is the next number, and which is then live. -/
theorem armedBy_cases (h : m.Sound) (hlive : m.Live) (event : Event) :
    (m.step event).2.Live ∧
      (m.armedBy event = none ∧ (m.step event).2.armed = m.armed ∨
        ∃ timer, m.armedBy event = some timer ∧ timer.token = m.armed + 1 ∧
          (m.step event).2.armed = m.armed + 1) := by
  rw [armedBy, Live]
  rcases step_timer_cases h event with
    ⟨r, context, k, now, typed, -, hstep⟩ | ⟨-, htimer, harmed⟩ | ⟨-, -, htimer, harmed⟩
  · rw [hstep]
    refine ⟨?_, Or.inr ⟨⟨m.armed + 1, now + m.timeout.ticks⟩, if_neg fun hsame => ?_, rfl, rfl⟩⟩
    · rintro timer ⟨⟩
      rfl
    · -- The timer that was live before has a lower token.
      have htoken := hlive _ hsame.symm
      exact absurd htoken (Nat.succ_ne_self _)
  · rw [htimer, harmed]
    refine ⟨fun timer hmem => (by cases hmem), Or.inl ⟨?_, rfl⟩⟩
    split <;> rfl
  · rw [htimer, harmed]
    exact ⟨hlive, Or.inl ⟨if_pos rfl, rfl⟩⟩

/-! ## Runs -/

theorem timeout_run (h : m.Sound) (events : List Event) :
    (m.run events).2.timeout = timeoutAfter m.timeout events := by
  induction events generalizing m with
  | nil => rfl
  | cons event events ih =>
    rw [run_cons, ih (sound_step h event), timeout_step h event]
    rfl

/-- Whatever is asked for, chords wait by the same clock. -/
theorem clock_timeoutAfter (timeout : Timeout) (events : List Event) :
    (timeoutAfter timeout events).clock = timeout.clock := by
  induction events generalizing timeout with
  | nil => rfl
  | cons event events ih => exact (ih _).trans (by cases event <;> rfl)

theorem armed_run (h : m.Sound) (events : List Event) :
    (m.run events).2.armed = m.armed + (m.run events).1.count (.outcome .pending) := by
  induction events generalizing m with
  | nil => rfl
  | cons event events ih =>
    rw [run_cons, ih (sound_step h event), armed_step h event, List.count_cons]
    omega

/-- The timers of two runs, one after the other. -/
theorem timers_append (m : Machine) (first second : List Event) :
    m.timers (first ++ second) = m.timers first ++ (m.run first).2.timers second := by
  induction first generalizing m with
  | nil => rfl
  | cons event first ih => rw [List.cons_append, timers, timers, ih, List.append_assoc, run_cons]

/-- The tokens of a run are the numbers that follow one another. -/
theorem tokens_timers (h : m.Sound) (hlive : m.Live) (events : List Event) :
    (m.run events).2.Live ∧
      (m.run events).2.armed = m.armed + (m.timers events).length ∧
      (m.timers events).map Timer.token =
        List.range' (m.armed + 1) (m.timers events).length := by
  -- The counter is the same as before the event, or the event has taken the first number.
  induction events generalizing m with
  | nil => exact ⟨hlive, rfl, rfl⟩
  | cons event events ih =>
    obtain ⟨hstep, hcases⟩ := armedBy_cases h hlive event
    obtain ⟨hrun, harmed, htokens⟩ := ih (sound_step h event) hstep
    rw [run_cons, timers]
    refine ⟨hrun, ?_⟩
    rcases hcases with ⟨hnone, hsame⟩ | ⟨timer, hsome, htoken, hnext⟩
    · rw [hsame] at harmed htokens
      rw [hnone]
      exact ⟨harmed, htokens⟩
    · rw [hnext] at harmed htokens
      rw [hsome, Option.toList_some, List.singleton_append, List.length_cons, List.map_cons,
        List.range'_succ, htoken, htokens, harmed]
      exact ⟨by omega, rfl⟩

/-- A timer that runs was armed by the last keystroke. -/
theorem armedAt_run (h : m.Sound) (hidle : m.timer = none) (events : List Event) :
    ∀ timer ∈ (m.run events).2.timer,
      ArmedAt m.timeout events (m.run events).2.keystrokes timer := by
  -- The last event is the one that may arm a timer, so the induction takes it off.
  induction events using List.reverseRecOn with
  | nil =>
    intro timer htimer
    rw [run_nil, hidle] at htimer
    cases htimer
  | append_singleton events event ih =>
    rw [run_concat]
    intro timer htimer
    rcases step_timer_cases (sound_run h events) event with
      ⟨r, context, k, now, typed, rfl, hstep⟩ | ⟨-, hnone, -⟩ | ⟨hother, hpending, hsame, -⟩
    · rw [hstep] at htimer ⊢
      cases htimer
      refine ⟨events, [], r, context, k, now, rfl, by simp, List.getLast?_concat, ?_⟩
      rw [← timeout_run h events]
    · rw [hnone] at htimer
      cases htimer
    · rw [hsame] at htimer
      obtain ⟨before, after, r, context, k, now, hevents, hafter, hkey, hdeadline⟩ :=
        ih timer htimer
      refine ⟨before, after ++ [event], r, context, k, now, ?_, ?_, ?_, hdeadline⟩
      · rw [hevents, List.append_assoc, List.cons_append]
      · exact List.forall_mem_append.mpr ⟨hafter, List.forall_mem_singleton.mpr hother⟩
      · rw [keystrokes, hpending]
        exact hkey

/-! ## The next keystroke -/

/-- A keystroke is answered as pending exactly if a chord is pending after it. -/
theorem handle_eq_pending_iff (h : m.Sound) (r : Registry) (context : Context) (k : Keystroke)
    (now : Nat) : (m.handle r context k now).1 = .pending ↔
      (m.handle r context k now).2.isActive = true := by
  have hhandling := handling_handle h r context k now
  generalize m.handle r context k now = after at hhandling ⊢
  cases hhandling with
  | recorded hrecording =>
    rw [isActive, h.recording hrecording]
    simp
  | waits => exact iff_of_true rfl rfl
  | fires => exact iff_of_false (fun heq => by cases heq) Bool.false_ne_true
  | breaks => exact iff_of_false (fun heq => by cases heq) Bool.false_ne_true
  | misses => exact iff_of_false (fun heq => by cases heq) Bool.false_ne_true

/-- Some enabled command of the registry goes on after a chord that a keystroke makes pending. -/
theorem exists_goesOnAfter_of_pending (h : m.Sound)
    (hpending : (m.handle r context k now).1 = .pending) :
    ∃ c ∈ r.commands, c.isEnabled context = true ∧
      c.GoesOnAfter (m.handle r context k now).2.keystrokes := by
  have hhandling := handling_handle h r context k now
  generalize m.handle r context k now = after at hhandling hpending ⊢
  cases hhandling with
  | waits _ _ hextension =>
    -- The candidates are among the commands, whatever the registry indexes.
    obtain ⟨c, hc, hawaits⟩ := List.any_eq_true.mp hextension
    obtain ⟨hgoes, henabled⟩ := (Registry.awaits_eq_true_iff _ _ c).mp hawaits
    exact ⟨c, Registry.mem_commands_of_mem_candidates _ hc, henabled, hgoes⟩
  | _ => cases hpending

/-- How the chord, the timer and the counter of a machine belong together after some events, which
began with an idle machine. -/
structure Consistent (start : Machine) (events : List Event) (m : Machine) : Prop where
  /-- A chord is pending exactly while a timer runs, -/
  timer_isSome : m.timer.isSome = m.isActive
  /-- which has a deadline -/
  deadline_isSome : m.deadline.isSome = m.isActive
  /-- and a token, -/
  token_isSome : m.token.isSome = m.isActive
  /-- and the chord is then shown. -/
  indicator_isSome : m.indicator.isSome = m.isActive
  /-- A pending chord has keystrokes. -/
  nonempty : ∀ chord ∈ m.pending, chord.keystrokes ≠ []
  /-- While recording no chord is pending and no timer runs. -/
  recording : m.recording = true → m.pending = none ∧ m.timer = none
  /-- The counter tells how many timers have been armed, -/
  armed_eq : m.armed = (start.timers events).length
  /-- one by each keystroke that was answered as pending, -/
  armed_eq_count : m.armed = (start.run events).1.count (.outcome .pending)
  /-- their tokens are the numbers up to it, -/
  tokens : (start.timers events).map Timer.token = List.range' 1 m.armed
  /-- and the live token is the last of them. -/
  live : ∀ token ∈ m.token, token = m.armed
  /-- Chords wait as long as was last asked for, -/
  timeout_eq : m.timeout = timeoutAfter start.timeout events
  /-- by the clock that the machine began with, -/
  clock_eq : m.timeout.clock = start.timeout.clock
  /-- and for a tenth of a second at least and ten seconds at most. -/
  timeout_range : 100 * m.timeout.clock.perMs ≤ m.timeout.ticks ∧
    m.timeout.ticks ≤ 10000 * m.timeout.clock.perMs
  /-- The deadline counts from the last keystroke of the chord. -/
  armedAt : ∀ timer ∈ m.timer, ArmedAt start.timeout events m.keystrokes timer
  /-- The next keystroke is answered as pending exactly if a chord is pending after it, -/
  pending_iff : ∀ r context k now, (m.handle r context k now).1 = .pending ↔
    (m.handle r context k now).2.isActive = true
  /-- after which an enabled command goes on. -/
  goesOn : ∀ r context k now, (m.handle r context k now).1 = .pending →
    ∃ c ∈ r.commands, c.isEnabled context = true ∧
      c.GoesOnAfter (m.handle r context k now).2.keystrokes

/-- Whatever happens to a new machine, it stays consistent. -/
theorem consistent_run (clock : Clock) (time : Nat) (policy : BreakPolicy) (events : List Event) :
    Consistent (idle (clock.clamp time) policy) events
      ((idle (clock.clamp time) policy).run events).2 := by
  have hidle := sound_idle (clock.clamp time) policy
  have hsound := sound_run hidle events
  have hstart : (idle (clock.clamp time) policy).Live := fun timer htimer => by cases htimer
  obtain ⟨hlive, harmed, htokens⟩ := tokens_timers hidle hstart events
  -- No timer has been armed before, so that the tokens count from one.
  have hcount : (idle (clock.clamp time) policy).armed = 0 := rfl
  rw [hcount, Nat.zero_add] at harmed htokens
  rw [← harmed] at htokens
  have hcounted := armed_run hidle events
  rw [hcount, Nat.zero_add] at hcounted
  have htimeout := timeout_run hidle events
  have harmedAt := armedAt_run hidle rfl events
  generalize ((idle (clock.clamp time) policy).run events).2 = m at *
  exact {
    timer_isSome := hsound.timed.symm
    deadline_isSome := by rw [deadline, Option.isSome_map, ← hsound.timed, isActive]
    token_isSome := by rw [token, Option.isSome_map, ← hsound.timed, isActive]
    indicator_isSome := by rw [indicator, Option.isSome_map, isActive]
    nonempty := hsound.nonempty
    recording := fun hrecording =>
      ⟨hsound.recording hrecording, hsound.timer_eq_none (hsound.recording hrecording)⟩
    armed_eq := harmed
    armed_eq_count := hcounted
    tokens := htokens
    live := by
      intro token htoken
      obtain ⟨timer, htimer, rfl⟩ := Option.map_eq_some_iff.mp htoken
      exact hlive timer htimer
    timeout_eq := htimeout
    clock_eq := by rw [htimeout, clock_timeoutAfter]
    timeout_range := ⟨m.timeout.min_le, m.timeout.le_max⟩
    armedAt := harmedAt
    pending_iff := handle_eq_pending_iff hsound
    goesOn := fun _ _ _ _ => exists_goesOnAfter_of_pending hsound }

end KeyChord.Chord.Machine
