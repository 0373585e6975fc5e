import KeyChord.Proofs.Chord.Timers
import KeyChord.Proofs.Lists

/-!
# Tokens that are handed back

A host may hand the token of a timer back as late and as often as it likes. The token gives a chord
up only if it is the one that the chord waits with: a token that has been overtaken by a later one,
or whose chord is over, does nothing.

The module introduces:

* `Machine.Ends m event`: the event is the end of what is pending in `m`, which is cancelled, runs
  out of time, is completed, goes on with a new timer or is broken.
* `Machine.Unended start events token`: the token is that of the latest timer of a run, and nothing
  has ended its chord since.

A timer runs on exactly through the events that do not end its chord (`timer_step_eq_some_iff`), so
that the unended token is the live one (`token_run_eq_some_iff`). A token that is not live any more
never is again (`token_run_ne_some`). The main statement is `timerFired_run`. Tokens are numbers
without a bound here, but none is greater than the number of timers that have been armed: a counter
of 64 bits is enough for every run that arms fewer than `2 ^ 64` timers.
-/

namespace KeyChord.Chord.Machine

/-- The event is the end of what is pending in the machine. -/
inductive Ends (m : Machine) : Event → Prop
  /-- The chord is cancelled. -/
  | cancelled : Ends m .cancel
  /-- The chord is cancelled because recording starts. -/
  | recorded : Ends m (.record true)
  /-- The clock is read when the time of the chord is over. -/
  | expired {now : Nat} (hdue : ∃ timer ∈ m.timer, timer.deadline ≤ now) : Ends m (.tick now)
  /-- The token that the chord waits with is handed back. -/
  | returned {token : Nat} (hlive : m.token = some token) : Ends m (.timer token)
  /-- The keystroke arrives when the time of the chord is over. -/
  | late {r : Registry} {context : Context} {k : Keystroke} {now : Nat}
      (hdue : ∃ timer ∈ m.timer, timer.deadline ≤ now) : Ends m (.keystroke r context k now)
  /-- The keystroke completes the chord. -/
  | completed {r : Registry} {context : Context} {k : Keystroke} {now : Nat} {c : Command}
      (htyped : m.inTime now ≠ []) (hexact : r.firstExact? (m.inTime now ++ [k]) context = some c) :
      Ends m (.keystroke r context k now)
  /-- The chord goes on with the keystroke. -/
  | extended {r : Registry} {context : Context} {k : Keystroke} {now : Nat}
      (htyped : m.inTime now ≠ []) (hexact : r.firstExact? (m.inTime now ++ [k]) context = none)
      (hextension : r.hasExtension (m.inTime now ++ [k]) context = true) :
      Ends m (.keystroke r context k now)
  /-- The keystroke breaks the chord. -/
  | broken {r : Registry} {context : Context} {k : Keystroke} {now : Nat}
      (hbreaks : m.Breaks r context k now) : Ends m (.keystroke r context k now)

/-- The token is that of a timer that one of the events armed. None has armed a timer since, and
none has ended the chord that the timer was armed for. -/
def Unended (start : Machine) (events : List Event) (token : Nat) : Prop :=
  ∃ before event after timer, events = before ++ event :: after ∧
    (start.run before).2.armedBy event = some timer ∧ timer.token = token ∧
    (start.run (before ++ [event])).2.timers after = [] ∧
    ∀ front e back, after = front ++ e :: back →
      ¬(start.run (before ++ event :: front)).2.Ends e

variable {m : Machine} {token : Nat}

/-! ## One event -/

/-- No keystroke leaves a pending chord as it is. -/
theorem Sound.ends_keystroke (h : m.Sound) {timer : Timer} (htimer : m.timer = some timer)
    (r : Registry) (context : Context) (k : Keystroke) (now : Nat) :
    m.Ends (.keystroke r context k now) := by
  by_cases hdue : timer.deadline ≤ now
  · exact .late ⟨timer, htimer, hdue⟩
  · obtain ⟨chord, hchord⟩ : ∃ chord, m.pending = some chord := by
      rw [← Option.isSome_iff_exists, h.timed, htimer]
      rfl
    have htyped : m.inTime now ≠ [] := by
      rw [inTime_of_lt hchord htimer (Nat.lt_of_not_le hdue)]
      exact h.nonempty chord hchord
    -- In time, the two lookups tell how the keystroke ends the chord.
    cases hexact : r.firstExact? (m.inTime now ++ [k]) context with
    | some c => exact .completed htyped hexact
    | none =>
      cases hextension : r.hasExtension (m.inTime now ++ [k]) context with
      | true => exact .extended htyped hexact hextension
      | false => exact .broken ⟨htyped, hexact, hextension⟩

/-- After a keystroke no timer runs that ran before. -/
theorem timer_step_keystroke_ne (h : m.Sound) (hlive : m.Live) {timer : Timer}
    (htimer : m.timer = some timer) (r : Registry) (context : Context) (k : Keystroke)
    (now : Nat) : (m.step (.keystroke r context k now)).2.timer ≠ some timer := by
  intro hsame
  rcases step_timer_cases h (.keystroke r context k now) with
    ⟨r, context, k, now, typed, -, hstep⟩ | ⟨-, hnone, -⟩ | ⟨hother, -⟩
  · -- A new timer has a new token.
    rw [hstep] at hsame
    cases hsame
    exact absurd (hlive _ htimer) (Nat.succ_ne_self _)
  · rw [hnone] at hsame
    cases hsame
  · exact hother trivial

/-- A timer runs on exactly through the events that do not end its chord. -/
theorem timer_step_eq_some_iff (h : m.Sound) (hlive : m.Live) {timer : Timer}
    (htimer : m.timer = some timer) (event : Event) :
    (m.step event).2.timer = some timer ↔ ¬m.Ends event := by
  have hidle : m.cancel.timer ≠ some timer := (Option.some_ne_none timer).symm
  cases event with
  | keystroke r context k now =>
    exact iff_of_false (timer_step_keystroke_ne h hlive htimer r context k now)
      (not_not_intro (h.ends_keystroke htimer r context k now))
  | tick now =>
    -- The clock gives the chord up from the deadline on.
    rw [step]
    rcases expire_cases m now with ⟨hexpire, hearly⟩ | ⟨hexpire, hdue⟩ <;> rw [hexpire]
    · refine iff_of_true htimer fun hends => ?_
      cases hends with
      | expired hdue =>
        obtain ⟨timer', htimer', hdue⟩ := hdue
        exact absurd (hearly timer' htimer') (Nat.not_lt_of_le hdue)
    · exact iff_of_false hidle (not_not_intro (.expired hdue))
  | timer token =>
    -- Another token is ignored.
    by_cases htoken : m.token = some token
    · rw [step, timerFired, if_pos htoken]
      exact iff_of_false hidle (not_not_intro (.returned htoken))
    · rw [step, timerFired, if_neg htoken]
      refine iff_of_true htimer fun hends => ?_
      cases hends with
      | returned hlive => exact htoken hlive
  | cancel => exact iff_of_false hidle (not_not_intro .cancelled)
  | record on =>
    cases on with
    | true => exact iff_of_false hidle (not_not_intro .recorded)
    | false => exact iff_of_true htimer fun hends => by cases hends
  | setTimeout time => exact iff_of_true htimer fun hends => by cases hends
  | setPolicy policy => exact iff_of_true htimer fun hends => by cases hends

/-- An old token that is not live does not become live. -/
theorem token_step_ne_some (h : m.Sound) (hold : token ≤ m.armed) (hdead : m.token ≠ some token)
    (event : Event) :
    token ≤ (m.step event).2.armed ∧ (m.step event).2.token ≠ some token := by
  rw [Machine.token]
  rcases step_timer_cases h event with
    ⟨r, context, k, now, typed, -, hstep⟩ | ⟨-, htimer, harmed⟩ | ⟨-, -, htimer, harmed⟩
  · rw [hstep]
    refine ⟨Nat.le_succ_of_le hold, fun hlive => ?_⟩
    exact absurd (Option.some.inj hlive) (Nat.ne_of_gt (Nat.lt_succ_of_le hold))
  · rw [htimer, harmed]
    exact ⟨hold, (Option.some_ne_none token).symm⟩
  · rw [htimer, harmed]
    exact ⟨hold, hdead⟩

/-! ## Runs -/

/-- An old token that is not live never becomes live. -/
theorem token_run_ne_some (h : m.Sound) (hold : token ≤ m.armed) (hdead : m.token ≠ some token)
    (events : List Event) : (m.run events).2.token ≠ some token := by
  induction events generalizing m with
  | nil => exact hdead
  | cons event events ih =>
    obtain ⟨hold, hdead⟩ := token_step_ne_some h hold hdead event
    exact ih (sound_step h event) hold hdead

/-- After one more event, the token is that of a timer that the event has armed, or it was the
latest before, and the event has neither armed a timer nor ended the chord. -/
theorem unended_concat_iff {start : Machine} {events : List Event} {last : Event} :
    Unended start (events ++ [last]) token ↔
      (∃ timer, (start.run events).2.armedBy last = some timer ∧ timer.token = token) ∨
        Unended start events token ∧ (start.run events).2.armedBy last = none ∧
          ¬(start.run events).2.Ends last := by
  -- The events after the one that armed the timer lead to the same machine.
  have hrun : ∀ before event after, ((start.run (before ++ [event])).2.run after).2 =
      (start.run (before ++ event :: after)).2 := by
    intro before event after
    rw [List.append_cons before event after, run_append start (before ++ [event]) after]
  constructor
  · rintro ⟨before, event, after, timer, hevents, harms, htoken, hnone, hunended⟩
    -- The event that armed the timer is the last one, or it stands before the last one.
    rcases concat_eq_append_cons_iff.mp hevents with ⟨rfl, rfl, rfl⟩ | ⟨after, rfl, rfl⟩
    · exact Or.inl ⟨timer, harms, htoken⟩
    · rw [timers_append, hrun, List.append_eq_nil_iff, timers, timers, List.append_nil,
        Option.toList_eq_nil_iff] at hnone
      refine Or.inr ⟨⟨before, event, after, timer, rfl, harms, htoken, hnone.1, ?_⟩, hnone.2,
        hunended after last [] rfl⟩
      rintro front e back rfl
      exact hunended front e (back ++ [last]) (List.append_assoc _ _ _)
  · rintro (⟨timer, harms, htoken⟩ | ⟨⟨before, event, after, timer, rfl, harms, htoken, hnone,
      hunended⟩, harmed, hends⟩)
    · exact ⟨events, last, [], timer, rfl, harms, htoken, rfl, by simp⟩
    · refine ⟨before, event, after ++ [last], timer, List.append_assoc _ _ _, harms, htoken, ?_, ?_⟩
      · rw [timers_append, hrun, hnone, timers, harmed]
        rfl
      · intro front e back hback
        rcases concat_eq_append_cons_iff.mp hback with ⟨rfl, rfl, rfl⟩ | ⟨back, rfl, rfl⟩
        · exact hends
        · exact hunended front e back rfl

/-- The live token is the latest one, and nothing has ended its chord. -/
theorem token_run_eq_some_iff {start : Machine} (h : start.Sound) (hidle : start.timer = none)
    (events : List Event) :
    (start.run events).2.token = some token ↔ Unended start events token := by
  have hlive : start.Live := fun timer htimer => by rw [hidle] at htimer; cases htimer
  induction events using List.reverseRecOn with
  | nil =>
    rw [run_nil, Machine.token, hidle]
    refine iff_of_false (Option.some_ne_none token).symm ?_
    rintro ⟨before, event, after, timer, hnil, -⟩
    exact List.append_ne_nil_of_right_ne_nil before (List.cons_ne_nil event after) hnil.symm
  | append_singleton events last ih =>
    have hsound := sound_run h events
    have hlast := (tokens_timers h hlive events).1
    have hbefore : (start.run events).2.token = some token ↔ Unended start events token := ih
    rw [unended_concat_iff, ← hbefore, run_concat]
    -- The timer that runs after the event ran before, or the event has armed it.
    by_cases hsame : ((start.run events).2.step last).2.timer = (start.run events).2.timer
    · rw [armedBy, if_pos hsame, Machine.token, hsame, ← Machine.token]
      simp only [reduceCtorEq, false_and, exists_false, false_or, true_and]
      refine (and_iff_left_of_imp fun htoken => ?_).symm
      obtain ⟨timer, htimer, -⟩ := Option.map_eq_some_iff.mp htoken
      exact (timer_step_eq_some_iff hsound hlast htimer last).mp (hsame.trans htimer)
    · rw [armedBy, if_neg hsame, Machine.token, Option.map_eq_some_iff]
      refine (or_iff_left ?_).symm
      rintro ⟨htoken, -, hends⟩
      refine hsame ?_
      obtain ⟨timer, htimer, -⟩ := Option.map_eq_some_iff.mp htoken
      rw [(timer_step_eq_some_iff hsound hlast htimer last).mpr hends, htimer]

/-! ## Handing tokens back -/

/-- A token gives a chord up exactly if it is the live one. -/
theorem timerFired_eq_true_iff (m : Machine) (token : Nat) :
    (m.timerFired token).1 = true ↔ m.token = some token := by
  rw [timerFired]
  split
  · exact iff_of_true rfl ‹_›
  · exact iff_of_false Bool.false_ne_true ‹_›

/-- A token that has given a chord up does not give up another one, whatever happens later. -/
theorem timerFired_run_eq_false (hlive : m.Live) (hfired : (m.timerFired token).1 = true)
    (later : List Event) :
    ((m.run (.timer token :: later)).2.timerFired token).1 = false := by
  have htoken := (timerFired_eq_true_iff m token).mp hfired
  have hcancel : (m.step (.timer token)).2 = m.cancel := by
    rw [step, timerFired, if_pos htoken]
  have hold : token ≤ m.cancel.armed := by
    obtain ⟨timer, htimer, rfl⟩ := Option.map_eq_some_iff.mp htoken
    exact Nat.le_of_eq (hlive timer htimer)
  rw [← Bool.not_eq_true, timerFired_eq_true_iff, run_cons, hcancel]
  exact token_run_ne_some (sound_cancel m) hold (Option.some_ne_none token).symm later

/-- What comes of handing a token back to the machine `m`, to which some events have led. -/
structure HandedBack (start : Machine) (events : List Event) (m : Machine) (token : Nat) :
    Prop where
  /-- A chord is given up exactly if the token is that of the latest timer and nothing has ended
  its chord since. -/
  given_iff : (m.timerFired token).1 = true ↔ Unended start events token
  /-- If none is given up, the machine stays as it was. -/
  ignored : (m.timerFired token).1 = false → (m.timerFired token).2 = m
  /-- If one is given up, the machine becomes idle and keeps all else, -/
  idle : (m.timerFired token).1 = true →
    (m.timerFired token).2 = { m with pending := none, timer := none }
  /-- and the token gives up no other one, whatever happens later. -/
  once : (m.timerFired token).1 = true → ∀ later,
    ((start.run (events ++ .timer token :: later)).2.timerFired token).1 = false

/-- Whatever has happened to a new machine, handing a token back does nothing unless it is that of
the latest timer, whose chord still waits; and no token does so twice. The tokens of the timers that
have been armed increase, and none of them is greater than the number of these timers. -/
theorem timerFired_run (clock : Clock) (time : Nat) (policy : BreakPolicy) (events : List Event) :
    (∀ token, HandedBack (idle (clock.clamp time) policy) events
      ((idle (clock.clamp time) policy).run events).2 token) ∧
      (((idle (clock.clamp time) policy).timers events).map Timer.token).Pairwise (· < ·) ∧
      ∀ timer ∈ (idle (clock.clamp time) policy).timers events,
        timer.token ≤ ((idle (clock.clamp time) policy).timers events).length := by
  have hidle := sound_idle (clock.clamp time) policy
  have hstart : (idle (clock.clamp time) policy).Live := fun timer htimer => by cases htimer
  obtain ⟨hlive, -, htokens⟩ := tokens_timers hidle hstart events
  -- No timer has been armed before, so that the tokens count from one.
  have hcount : (idle (clock.clamp time) policy).armed = 0 := rfl
  rw [hcount, Nat.zero_add] at htokens
  have hnone : (idle (clock.clamp time) policy).timer = none := rfl
  generalize idle (clock.clamp time) policy = start at *
  refine ⟨fun token => ?_, ?_, fun timer htimer => ?_⟩
  · have hcases := timerFired_cases (start.run events).2 token
    exact {
      given_iff := (timerFired_eq_true_iff _ token).trans
        (token_run_eq_some_iff hidle hnone events)
      ignored := by
        intro hfalse
        rcases hcases with h | h <;> rw [h] at hfalse ⊢
        cases hfalse
      idle := by
        intro htrue
        rcases hcases with h | h <;> rw [h] at htrue ⊢
        · cases htrue
        · rfl
      once := by
        intro htrue later
        rw [run_append]
        exact timerFired_run_eq_false hlive htrue later }
  · rw [htokens]
    exact List.pairwise_lt_range'
  · have hmem : timer.token ∈ (start.timers events).map Timer.token := List.mem_map_of_mem htimer
    rw [htokens, List.mem_range'_1] at hmem
    omega

end KeyChord.Chord.Machine
