import KeyChord.Proofs.Resolver.Unrivalled

/-!
# The end of a chord may be delivered in any way

A host may read the clock often or never, and it may hand back the token of a timer or not. The
keystrokes cannot tell: a chord whose time is over is given up at the latest when the next
keystroke arrives.

The module introduces:

* `InOrder finish events`: the keystrokes and the readings of the clock come in the order of their
  times, and none after `finish`.
* `Redelivery finish r events r' events'`: the same happens to `r` and to `r'`, except that in each
  of the two runs the clock may be read where it is not in the other, and tokens may be handed back
  that are not in the other, if the time of their chord is over from there on.
* `Alike finish arrivals r r'`: the relation between the two runs. The resolvers are equal, or one
  still has a chord that the other has given up, and whose time is over at `finish` and before each
  keystroke to come.

An event that happens in both runs keeps them alike (`Alike.step`), and so does one that is added
to one of them (`Alike.deliver`). The main statement is `keypresses_eq_of_redelivery`.
-/

namespace KeyChord.Resolver

/-- The time of a keystroke or of a reading of the clock. -/
def Event.time? : Event → Option Nat
  | .keystroke _ _ now | .tick now => some now
  | _ => none

/-- The time at which a keystroke arrives. -/
def Event.arrival? : Event → Option Nat
  | .keystroke _ _ now => some now
  | _ => none

/-- The times of the keystrokes and of the readings of the clock. -/
def times (events : List Event) : List Nat :=
  events.filterMap Event.time?

/-- The times at which keystrokes arrive. -/
def arrivals (events : List Event) : List Nat :=
  events.filterMap Event.arrival?

/-- No keystroke and no reading of the clock is earlier than one before it, or later than the
end. -/
def InOrder (finish : Nat) (events : List Event) : Prop :=
  (times events ++ [finish]).Pairwise (· ≤ ·)

instance (finish : Nat) (events : List Event) : Decidable (InOrder finish events) :=
  inferInstanceAs (Decidable ((times events ++ [finish]).Pairwise (· ≤ ·)))

/-- The event may tell the resolver that time has passed: the clock is read, or a token is handed
back which is not live or whose chord has no time left, neither for the keystrokes among the later
events nor until the end. -/
inductive Delivers (finish : Nat) (r : Resolver) (later : List Event) : Event → Prop
  | tick (now : Nat) : Delivers finish r later (.tick now)
  | timer {token : Nat} (hover : ∀ timer ∈ r.machine.timer, timer.token = token →
      timer.deadline ≤ finish ∧ ∀ now ∈ arrivals later, timer.deadline ≤ now) :
      Delivers finish r later (.timer token)

/-- The events that happen to two resolvers are the same but for such as deliver the end of a chord,
which may be added to either run. -/
inductive Redelivery (finish : Nat) : Resolver → List Event → Resolver → List Event → Prop
  | nil (r r' : Resolver) : Redelivery finish r [] r' []
  | common {r r' : Resolver} {events events' : List Event} (event : Event) :
      Redelivery finish (r.step event).2 events (r'.step event).2 events' →
      Redelivery finish r (event :: events) r' (event :: events')
  | first {r r' : Resolver} {events events' : List Event} {event : Event} :
      Delivers finish r events event → Redelivery finish (r.step event).2 events r' events' →
      Redelivery finish r (event :: events) r' events'
  | second {r r' : Resolver} {events events' : List Event} {event : Event} :
      Delivers finish r' events' event → Redelivery finish r events (r'.step event).2 events' →
      Redelivery finish r events r' (event :: events')

/-- `r'` is `r` after its chord has been given up, the time of which is over at the given times and
at the end. -/
structure Overdue (finish : Nat) (arrivals : List Nat) (r r' : Resolver) : Prop where
  /-- The time of the chord is over. -/
  due : ∃ timer ∈ r.machine.timer, timer.deadline ≤ finish ∧
    ∀ now ∈ arrivals, timer.deadline ≤ now
  /-- All else is equal. -/
  given : r' = { r with machine := r.machine.cancel }

/-- The resolvers are equal, or one of them has yet to give up a chord that the other has given
up. -/
def Alike (finish : Nat) (arrivals : List Nat) (r r' : Resolver) : Prop :=
  r = r' ∨ Overdue finish arrivals r r' ∨ Overdue finish arrivals r' r

variable {finish : Nat} {r r' : Resolver} {event : Event} {events events' : List Event}

/-! ## Times -/

/-- The order of the times is that of the first and of those after it. -/
theorem inOrder_cons_iff : InOrder finish (event :: events) ↔
    (∀ now ∈ event.time?, ∀ time ∈ times events ++ [finish], now ≤ time) ∧
      InOrder finish events := by
  rw [InOrder, times, List.filterMap_cons]
  cases event.time? with
  | none => exact (and_iff_right fun now hnow => by cases hnow).symm
  | some now =>
    show (now :: (times events ++ [finish])).Pairwise (· ≤ ·) ↔ _
    rw [List.pairwise_cons]
    simp [InOrder]

/-- Keystrokes arrive at times of the run. -/
theorem arrivals_subset_times (events : List Event) : arrivals events ⊆ times events := by
  intro now hnow
  obtain ⟨event, hmem, harrival⟩ := List.mem_filterMap.mp hnow
  refine List.mem_filterMap.mpr ⟨event, hmem, ?_⟩
  cases event with
  | keystroke k context time => exact harrival
  | _ => cases harrival

theorem arrivals_cons (event : Event) (events : List Event) :
    arrivals (event :: events) = event.arrival?.toList ++ arrivals events := by
  rw [arrivals, List.filterMap_cons]
  cases event.arrival? <;> rfl

/-- An event that delivers the end of a chord is no keystroke. -/
theorem Delivers.arrivals_eq (h : Delivers finish r events event) :
    arrivals (event :: events) = arrivals events := by
  cases h <;> rfl

/-- The keystrokes of two runs arrive at the same times, however the end of chords is delivered. -/
theorem Redelivery.arrivals_eq (h : Redelivery finish r events r' events') :
    arrivals events = arrivals events' := by
  induction h with
  | nil => rfl
  | common event _ ih => rw [arrivals_cons, arrivals_cons, ih]
  | first hdelivers _ ih => rw [hdelivers.arrivals_eq, ih]
  | second hdelivers _ ih => rw [hdelivers.arrivals_eq, ih]

/-! ## One event -/

/-- A chord that is overdue at some times is so at fewer. -/
theorem Overdue.mono {arrivals arrivals' : List Nat} (h : Overdue finish arrivals r r')
    (hsub : arrivals' ⊆ arrivals) : Overdue finish arrivals' r r' := by
  obtain ⟨⟨timer, htimer, hfinish, hdue⟩, hgiven⟩ := h
  exact ⟨⟨timer, htimer, hfinish, fun now hnow => hdue now (hsub hnow)⟩, hgiven⟩

theorem Alike.symm {arrivals : List Nat} (h : Alike finish arrivals r r') :
    Alike finish arrivals r' r := by
  rcases h with rfl | h | h
  · exact Or.inl rfl
  · exact Or.inr (Or.inr h)
  · exact Or.inr (Or.inl h)

/-- A keystroke that arrives when the time of the chord is over is handled as if the chord had
been given up before. -/
theorem handle_cancel_of_due {m : Chord.Machine} {now : Nat}
    (hdue : ∃ timer ∈ m.timer, timer.deadline ≤ now) (hrecording : m.recording = false)
    (registry : Registry) (context : Context) (k : Keystroke) :
    m.cancel.handle registry context k now = m.handle registry context k now := by
  have hexpire : m.expire now = (true, m.cancel) := by
    rcases Chord.Machine.expire_cases m now with ⟨-, hearly⟩ | ⟨hexpire, -⟩
    · obtain ⟨timer, htimer, hdue⟩ := hdue
      exact absurd (hearly timer htimer) (Nat.not_lt_of_le hdue)
    · exact hexpire
  have hsame : m.cancel.recording = m.recording := rfl
  rw [Chord.Machine.handle, Chord.Machine.handle, hexpire, hsame, hrecording]
  rfl

/-- If it makes no difference to the outcome of a keystroke that the chord has been given up before,
it makes none to the entry. -/
theorem keystroke_of_handle_cancel {k : Keystroke} {context : Context} {now : Nat}
    {outcome : Chord.Outcome} {m m' : Chord.Machine}
    (h : r.machine.handle r.registry context k now = (outcome, m))
    (h' : r.machine.cancel.handle r.registry context k now = (outcome, m')) :
    (r.entry (.keystroke k context now)).keypress? =
        (entry { r with machine := r.machine.cancel } (.keystroke k context now)).keypress? ∧
      (r.step (.keystroke k context now)).2 = { r with machine := m } ∧
      (step { r with machine := r.machine.cancel } (.keystroke k context now)).2 =
        { r with machine := m' } := by
  rw [step_keystroke h, step_keystroke (r := { r with machine := r.machine.cancel }) h',
    keypress?_entry_keystroke, keypress?_entry_keystroke, handle, handle, h, h']
  exact ⟨rfl, rfl, rfl⟩

/-- The same event happens to a resolver with an overdue chord and to one that has given it up: a
keystroke comes to the same, and the two stay alike. -/
theorem Overdue.step (h : Overdue finish (arrivals (event :: events)) r r') :
    (r.entry event).keypress? = (r'.entry event).keypress? ∧
      Alike finish (arrivals events) (r.step event).2 (r'.step event).2 := by
  have hrest : Overdue finish (arrivals events) r r' :=
    h.mono (by rw [arrivals_cons]; exact List.subset_append_right _ _)
  obtain ⟨⟨timer, htimer, hfinish, hdue⟩, rfl⟩ := h
  have hstill : ∃ timer ∈ r.machine.timer, timer.deadline ≤ finish ∧
    ∀ now ∈ arrivals events, timer.deadline ≤ now := hrest.due
  cases event with
  | keystroke k context now =>
    cases hrecording : r.machine.recording with
    | true =>
      -- Recording keeps the keystroke from both machines.
      have hhandle : r.machine.handle r.registry context k now = (.unhandled, r.machine) := by
        rw [Chord.Machine.handle, hrecording]
        rfl
      have hhandle' : r.machine.cancel.handle r.registry context k now =
          (.unhandled, r.machine.cancel) := by
        rw [Chord.Machine.handle, show r.machine.cancel.recording = true from hrecording]
        rfl
      obtain ⟨hkeypress, hstep, hstep'⟩ := keystroke_of_handle_cancel hhandle hhandle'
      rw [hstep, hstep']
      exact ⟨hkeypress, Or.inr (Or.inl ⟨hstill, rfl⟩)⟩
    | false =>
      -- The keystroke finds the chord given up, whoever has done it.
      have hhandle' := handle_cancel_of_due ⟨timer, htimer, hdue now List.mem_cons_self⟩ hrecording
        r.registry context k
      rcases hhandle : r.machine.handle r.registry context k now with ⟨outcome, m⟩
      rw [hhandle] at hhandle'
      obtain ⟨hkeypress, hstep, hstep'⟩ := keystroke_of_handle_cancel hhandle hhandle'
      rw [hstep, hstep']
      exact ⟨hkeypress, Or.inl rfl⟩
  | tick now =>
    refine ⟨rfl, ?_⟩
    rw [Resolver.step]
    rcases Chord.Machine.expire_cases r.machine now with ⟨hexpire, -⟩ | ⟨hexpire, -⟩ <;>
      rw [hexpire]
    · exact Or.inr (Or.inl ⟨hstill, rfl⟩)
    · exact Or.inl rfl
  | timer token =>
    refine ⟨rfl, ?_⟩
    rw [Resolver.step]
    rcases Chord.Machine.timerFired_cases r.machine token with hfired | hfired <;> rw [hfired]
    · exact Or.inr (Or.inl ⟨hstill, rfl⟩)
    · exact Or.inl rfl
  | cancel => exact ⟨rfl, Or.inl rfl⟩
  | record on =>
    cases on with
    | true => exact ⟨rfl, Or.inl rfl⟩
    | false => exact ⟨rfl, Or.inr (Or.inl ⟨hstill, rfl⟩)⟩
  | setTimeout time => exact ⟨rfl, Or.inr (Or.inl ⟨hstill, rfl⟩)⟩
  | setPolicy policy => exact ⟨rfl, Or.inr (Or.inl ⟨hstill, rfl⟩)⟩
  | edit edits => exact ⟨rfl, Or.inl rfl⟩

/-- An event that happens to both of two alike resolvers leaves them alike, and a keystroke comes to
the same in both. -/
theorem Alike.step (h : Alike finish (arrivals (event :: events)) r r') :
    (r.entry event).keypress? = (r'.entry event).keypress? ∧
      Alike finish (arrivals events) (r.step event).2 (r'.step event).2 := by
  rcases h with rfl | h | h
  · exact ⟨rfl, Or.inl rfl⟩
  · exact h.step
  · exact ⟨h.step.1.symm, h.step.2.symm⟩

/-- An event that delivers the end of a chord does nothing, or it gives a chord up that is overdue
from there on. -/
theorem Delivers.step_eq_or (h : Delivers finish r events event)
    (horder : InOrder finish (event :: events)) :
    (r.entry event).keypress? = none ∧
      ((r.step event).2 = r ∨ Overdue finish (arrivals events) r (r.step event).2) := by
  cases h with
  | tick now =>
    refine ⟨rfl, ?_⟩
    rw [Resolver.step]
    rcases Chord.Machine.expire_cases r.machine now with ⟨hexpire, -⟩ |
      ⟨hexpire, timer, htimer, hdue⟩ <;> rw [hexpire]
    · exact Or.inl rfl
    · -- What comes later in the run is not earlier than the reading of the clock.
      have hlater := (inOrder_cons_iff.mp horder).1 now rfl
      have hfinish : now ≤ finish := hlater finish (by simp)
      refine Or.inr ⟨⟨timer, htimer, hdue.trans hfinish, fun time htime => ?_⟩, rfl⟩
      exact hdue.trans (hlater time (List.mem_append_left _ (arrivals_subset_times events htime)))
  | @timer token hover =>
    refine ⟨rfl, ?_⟩
    by_cases hlive : r.machine.token = some token
    · obtain ⟨timer, htimer, htoken⟩ := Option.map_eq_some_iff.mp hlive
      rw [Resolver.step, Chord.Machine.timerFired, if_pos hlive]
      exact Or.inr ⟨⟨timer, htimer, hover timer htimer htoken⟩, rfl⟩
    · rw [Resolver.step, Chord.Machine.timerFired, if_neg hlive]
      exact Or.inl rfl

/-- An event that happens to one of two alike resolvers leaves them alike if it does nothing or
gives an overdue chord up. -/
theorem Alike.deliver {arrivals : List Nat} (h : Alike finish arrivals r r')
    (hstep : (r.step event).2 = r ∨ Overdue finish arrivals r (r.step event).2) :
    Alike finish arrivals (r.step event).2 r' := by
  rcases hstep with hsame | hover
  · rw [hsame]
    exact h
  · rcases h with rfl | h | h
    · exact Or.inr (Or.inr hover)
    · -- Both have given up the same chord now.
      exact Or.inl (hover.given.trans h.given.symm)
    · -- The chord of the first has been given up before, so that none is left to be overdue.
      obtain ⟨timer, htimer, -⟩ := hover.due
      rw [h.given] at htimer
      cases htimer

/-! ## Runs -/

theorem keypresses_log_cons (r : Resolver) (event : Event) (events : List Event) :
    keypresses (r.log (event :: events)) =
      (r.entry event).keypress?.toList ++ keypresses ((r.step event).2.log events) := by
  rw [log, keypresses, List.filterMap_cons]
  cases (r.entry event).keypress? <;> rfl

/-- Two alike resolvers answer their keystrokes alike, and stay alike to the end, however the end
of chords is delivered to each. -/
theorem Redelivery.alike (h : Redelivery finish r events r' events')
    (horder : InOrder finish events) (horder' : InOrder finish events')
    (halike : Alike finish (arrivals events) r r') :
    keypresses (r.log events) = keypresses (r'.log events') ∧
      Alike finish [] (r.run events).2 (r'.run events').2 := by
  -- By induction on how the two runs are matched: an event of both makes a step of both, and an
  -- event of one makes a step of this one, while the other waits.
  induction h with
  | nil => exact ⟨rfl, halike⟩
  | common event _ ih =>
    obtain ⟨hkeypress, hstep⟩ := halike.step
    obtain ⟨hkeypresses, hrun⟩ :=
      ih (inOrder_cons_iff.mp horder).2 (inOrder_cons_iff.mp horder').2 hstep
    rw [keypresses_log_cons, keypresses_log_cons, hkeypress, hkeypresses]
    exact ⟨rfl, hrun⟩
  | first hdelivers _ ih =>
    obtain ⟨hnone, hstep⟩ := hdelivers.step_eq_or horder
    rw [keypresses_log_cons, hnone]
    rw [hdelivers.arrivals_eq] at halike
    exact ih (inOrder_cons_iff.mp horder).2 horder' (halike.deliver hstep)
  | second hdelivers hrest ih =>
    obtain ⟨hnone, hstep⟩ := hdelivers.step_eq_or horder'
    rw [keypresses_log_cons, hnone]
    refine ih horder (inOrder_cons_iff.mp horder').2 ?_
    rw [hrest.arrivals_eq] at halike ⊢
    exact (halike.symm.deliver hstep).symm

/-- `r` still has a pending chord, whose deadline is not after the end; `r'` has given it up, and
all else is equal. -/
structure StillPending (finish : Nat) (r r' : Resolver) : Prop where
  /-- The first has a pending chord. -/
  active : r.machine.isActive = true
  /-- Its deadline is not after the end. -/
  due : ∃ deadline ∈ r.machine.deadline, deadline ≤ finish
  /-- The second is the first without the chord. -/
  given : r' = { r with machine := { r.machine with pending := none, timer := none } }

/-- A chord that is overdue at the end is one that is still pending. -/
theorem Overdue.stillPending {arrivals : List Nat} (h : Overdue finish arrivals r r')
    (hsound : r.machine.Sound) : StillPending finish r r' := by
  obtain ⟨⟨timer, htimer, hfinish, -⟩, hgiven⟩ := h
  refine ⟨?_, ⟨timer.deadline, Option.mem_map_of_mem _ htimer, hfinish⟩, hgiven⟩
  rw [Chord.Machine.isActive, hsound.timed, htimer]
  rfl

/-- Let the same happen twice to a reachable resolver, except that in each run the clock may be read
more often, and tokens may be handed back more often once the time of their chord is over for the
keystrokes that are to come and for the end. If time does not run backwards in the runs, every
keystroke is answered alike in both. The two end alike as well, except that one may still have a
chord pending whose deadline has come, which the other has given up. -/
theorem keypresses_eq_of_redelivery (hr : r.Reachable) (h : Redelivery finish r events r events')
    (horder : InOrder finish events) (horder' : InOrder finish events') :
    keypresses (r.log events) = keypresses (r.log events') ∧
      ((r.run events).2 = (r.run events').2 ∨
        StillPending finish (r.run events).2 (r.run events').2 ∨
        StillPending finish (r.run events').2 (r.run events).2) := by
  obtain ⟨hkeypresses, halike⟩ := h.alike horder horder' (Or.inl rfl)
  refine ⟨hkeypresses, ?_⟩
  rcases halike with hsame | hover | hover
  · exact Or.inl hsame
  · exact Or.inr (Or.inl (hover.stillPending (hr.run events).sound))
  · exact Or.inr (Or.inr (hover.stillPending (hr.run events').sound))

/-- A chord that is begun, runs out of time, and is begun again: nobody tells the resolver about the
time. -/
def untold : List Event :=
  [.keystroke ctrlK .empty 0, .keystroke ctrlS .empty 800, .keystroke ctrlK .empty 900]

/-- The same keystrokes, but the token of the first timer is handed back, and the clock is read
after the deadline of the second. -/
def told : List Event :=
  [.keystroke ctrlK .empty 0, .timer 1, .keystroke ctrlS .empty 800, .keystroke ctrlK .empty 900,
    .tick 1700]

/-- The keystrokes are answered alike, whether the resolver is told about the time or not. -/
theorem keypresses_untold :
    Redelivery 2000 (ofRegistry (.ofList [openSettings]) default default) untold
        (ofRegistry (.ofList [openSettings]) default default) told ∧
      InOrder 2000 untold ∧ InOrder 2000 told ∧
      keypresses ((ofRegistry (.ofList [openSettings]) default default).log untold) =
        keypresses ((ofRegistry (.ofList [openSettings]) default default).log told) := by
  have hredelivery : Redelivery 2000 (ofRegistry (.ofList [openSettings]) default default) untold
      (ofRegistry (.ofList [openSettings]) default default) told := by
    refine .common _ (.second (.timer ?_) (.common _ (.common _ (.second (.tick 1700) (.nil _ _)))))
    -- The first keystroke has armed the timer whose token is handed back.
    rw [step_openSettings]
    rintro timer ⟨⟩ -
    decide
  have horder : InOrder 2000 untold := by decide
  have horder' : InOrder 2000 told := by decide
  exact ⟨hredelivery, horder, horder',
    (keypresses_eq_of_redelivery reachable_openSettings hredelivery horder horder').1⟩

end KeyChord.Resolver
