import KeyChord.Proofs.Resolver.Unrivalled
import KeyChord.Resolver.Replay

/-!
# The pace of a replay

Keystrokes that are replayed come at even distances. Each of them is then in time for the chord
before it, or each comes too late, and nothing else about the times can be seen in the reports.

The module introduces:

* `Machine.InStep timeout m now m' now'`: a keystroke finds in `m` at `now` what it finds in `m'` at
  `now'`. The two machines make the same of it (`InStep.same_handle`), and are in step again when
  the next keystroke comes after delays on the same side of the timeout (`Same.inStep`).
* `Resolver.AtRest`: a reachable resolver that does not record and has no chord pending.
* `Resolver.report`: the report on one keystroke.

The main statement is `replay_eq_of_delay`.
-/

namespace KeyChord

namespace Chord.Machine

/-- A sound machine that gets its keystrokes. -/
structure Ready (m : Machine) : Prop where
  sound : m.Sound
  recording : m.recording = false

/-- A keystroke finds in `m` at `now` what it finds in `m'` at `now'`: both machines get it, it
goes with the same keystrokes, and chords wait for the same time and break in the same way. -/
structure InStep (timeout : Timeout) (m : Machine) (now : Nat) (m' : Machine) (now' : Nat) :
    Prop where
  ready : m.Ready
  ready' : m'.Ready
  timeout_eq : m.timeout = timeout
  timeout_eq' : m'.timeout = timeout
  policy_eq : m.policy = m'.policy
  inTime_eq : m.inTime now = m'.inTime now'

/-- `m` at `now` and `m'` at `now'` have made the same of a keystroke: both are idle after it, or
the same chord is pending in both. -/
inductive Same (m : Machine) (now : Nat) (m' : Machine) (now' : Nat) :
    Outcome × Machine → Outcome × Machine → Prop
  | idle (outcome : Outcome) : Same m now m' now' (outcome, m.cancel) (outcome, m'.cancel)
  | waits {typed : List Keystroke} : typed ≠ [] →
      Same m now m' now' (.pending, m.await typed now) (.pending, m'.await typed now')

variable {timeout : Timeout} {m m' : Machine} {now now' delay delay' : Nat}

/-- A keystroke is in time for the chord if it comes sooner than the timeout after it. -/
theorem inTime_await_add (m : Machine) (typed : List Keystroke) (now delay : Nat) :
    (m.await typed now).inTime (now + delay) = if delay < m.timeout.ticks then typed else [] := by
  split
  next hlt => exact inTime_of_lt rfl rfl (Nat.add_lt_add_left hlt now)
  next hle =>
    have hdue : now + m.timeout.ticks ≤ now + delay := by omega
    rcases expire_cases (m.await typed now) (now + delay) with ⟨-, hearly⟩ | ⟨hexpire, -⟩
    · exact absurd (hearly _ rfl) (Nat.not_lt_of_le hdue)
    · rw [inTime, hexpire]
      rfl

/-! ## One keystroke -/

/-- Two idle machines make the same of a keystroke. -/
theorem same_start (m m' : Machine) (r : Registry) (context : Context) (k : Keystroke)
    (now now' : Nat) :
    Same m now m' now' (m.cancel.start r context k now) (m'.cancel.start r context k now') := by
  rw [start, start]
  cases r.hasExtension [k] context with
  | true => exact .waits (List.cons_ne_nil k [])
  | false =>
    -- The keystroke is unhandled or fires, and nothing is pending after either.
    cases r.firstExact? [k] context with
    | none => exact .idle _
    | some c => exact .idle _

/-- Two machines in step make the same of a keystroke. -/
theorem InStep.same_handle (h : InStep timeout m now m' now') (r : Registry) (context : Context)
    (k : Keystroke) :
    Same m now m' now' (m.handle r context k now) (m'.handle r context k now') := by
  rw [h.ready.sound.handle_eq h.ready.recording, h.ready'.sound.handle_eq h.ready'.recording,
    h.inTime_eq]
  -- A chord that has waited for too long is given up, so that both machines start anew.
  by_cases hnil : m'.inTime now' = []
  · rw [if_pos hnil, if_pos hnil]
    exact same_start m m' r context k now now'
  · rw [if_neg hnil, if_neg hnil, resume, resume]
    cases r.firstExact? (m'.inTime now' ++ [k]) context with
    | some c => exact .idle _
    | none =>
      cases r.hasExtension (m'.inTime now' ++ [k]) context with
      | true => exact .waits (by simp)
      | false =>
        -- Both chords break, in the same way.
        have hpolicy : m.cancel.disarm.policy = m'.cancel.disarm.policy := h.policy_eq
        simp only [Bool.false_eq_true, if_false, hpolicy]
        cases m'.cancel.disarm.policy with
        | swallow => exact .idle _
        | reevaluate => exact same_start m m' r context k now now'

/-! ## The next keystroke -/

namespace Same

variable {after after' : Outcome × Machine}

theorem symm (h : Same m now m' now' after after') : Same m' now' m now after' after := by
  cases h with
  | idle outcome => exact .idle outcome
  | waits hne => exact .waits hne

theorem ready (h : Same m now m' now' after after') (hready : m.Ready) : after.2.Ready := by
  cases h with
  | idle => exact ⟨sound_cancel m, hready.recording⟩
  | waits hne => exact ⟨sound_await hne hready.recording, hready.recording⟩

theorem timeout_eq (h : Same m now m' now' after after') : after.2.timeout = m.timeout := by
  cases h <;> rfl

theorem policy_eq (h : Same m now m' now' after after') : after.2.policy = m.policy := by
  cases h <;> rfl

theorem keystrokes_eq (h : Same m now m' now' after after') :
    after.2.keystrokes = after'.2.keystrokes := by
  cases h <;> rfl

/-- The next keystroke goes with those that are pending if it comes sooner than the timeout. -/
theorem inTime_add (h : Same m now m' now' after after') (delay : Nat) :
    after.2.inTime (now + delay) = if delay < m.timeout.ticks then after.2.keystrokes else [] := by
  cases h with
  | idle =>
    rw [inTime_of_idle rfl]
    exact (ite_self _).symm
  | waits => exact inTime_await_add m _ now delay

/-- After the same keystroke, machines are in step for delays on the same side of the timeout. -/
theorem inStep (h : Same m now m' now' after after') (hstep : InStep timeout m now m' now')
    (hdelay : delay < timeout.ticks ↔ delay' < timeout.ticks) :
    InStep timeout after.2 (now + delay) after'.2 (now' + delay') where
  ready := h.ready hstep.ready
  ready' := h.symm.ready hstep.ready'
  timeout_eq := h.timeout_eq.trans hstep.timeout_eq
  timeout_eq' := h.symm.timeout_eq.trans hstep.timeout_eq'
  policy_eq := by rw [h.policy_eq, h.symm.policy_eq, hstep.policy_eq]
  inTime_eq := by
    rw [h.inTime_add, h.symm.inTime_add, hstep.timeout_eq, hstep.timeout_eq', h.keystrokes_eq]
    simp only [hdelay]

/-- If the next keystroke comes too late, it finds an idle machine. -/
theorem inStep_idle (h : Same m now m' now' after after') (hstep : InStep timeout m now m' now')
    (hidle : m'.pending = none) (hlate : timeout.ticks ≤ delay) :
    InStep timeout after.2 (now + delay) m' now' where
  ready := h.ready hstep.ready
  ready' := hstep.ready'
  timeout_eq := h.timeout_eq.trans hstep.timeout_eq
  timeout_eq' := hstep.timeout_eq'
  policy_eq := h.policy_eq.trans hstep.policy_eq
  inTime_eq := by
    rw [h.inTime_add, hstep.timeout_eq, if_neg (Nat.not_lt_of_le hlate), inTime_of_idle hidle]

end Same

/-! ## A keystroke alone -/

/-- An idle machine fires only commands that are bound to the keystroke alone. -/
theorem Ready.boundTo_of_fire (h : m.Ready) (hidle : m.pending = none) {r : Registry}
    (hindexed : r.Indexed) {context : Context} {k : Keystroke} {c : Command} (hc : c ∈ r.commands)
    (hfire : (m.handle r context k now).1 = .fire c.id) : c.BoundTo [k] := by
  have hhandling := handling_handle h.sound r context k now
  generalize m.handle r context k now = after at hhandling hfire
  cases hhandling with
  | @fires typed d _ htyped hexact =>
    have hnil : typed = [] := by
      rcases htyped with heq | ⟨hnil, -⟩
      · rw [heq, inTime_of_idle hidle]
      · exact hnil
    rw [hnil] at hexact
    obtain ⟨hd, hbound, -⟩ := hindexed.firstExact?_eq_some_iff.mp hexact
    -- The names of the registry tell its commands apart.
    rw [hindexed.eq_of_id_eq hc hd (Outcome.fire.inj hfire).symm]
    exact hbound
  | _ => cases hfire

end Chord.Machine

namespace Resolver

open Chord (Machine)

/-- A reachable resolver that does not record and has no chord pending. -/
structure AtRest (r : Resolver) : Prop where
  reachable : r.Reachable
  idle : r.machine.isActive = false
  recording : r.machine.recording = false

/-- The report on a keystroke that arrives at the given time. -/
def report (r : Resolver) (context : Context) (now : Nat) (k : Keystroke) : Report :=
  ⟨k.text, (r.handle context k now).1, (r.handle context k now).2.machine.indicator⟩

variable {r r' : Resolver} {context : Context} {timeout : Timeout} {now now' delay delay' : Nat}

theorem AtRest.pending_eq_none (h : r.AtRest) : r.machine.pending = none :=
  Option.isNone_iff_eq_none.mp (Option.isSome_eq_false_iff.mp h.idle)

theorem AtRest.ready (h : r.AtRest) : r.machine.Ready :=
  ⟨h.reachable.sound, h.recording⟩

theorem atRest_ofRegistry {registry : Registry} (hr : registry.Reachable) (timeout : Timeout)
    (policy : BreakPolicy) : (ofRegistry registry timeout policy).AtRest :=
  ⟨.ofRegistry timeout policy hr, rfl, rfl⟩

/-- Resolvers at rest with the same settings are in step, at any times. -/
theorem AtRest.inStep (h : r.AtRest) (h' : r'.AtRest)
    (htimeout : r.machine.timeout = r'.machine.timeout)
    (hpolicy : r.machine.policy = r'.machine.policy) (now now' : Nat) :
    Machine.InStep r.machine.timeout r.machine now r'.machine now' where
  ready := h.ready
  ready' := h'.ready
  timeout_eq := rfl
  timeout_eq' := htimeout.symm
  policy_eq := hpolicy
  inTime_eq := by
    rw [Machine.inTime_of_idle h.pending_eq_none, Machine.inTime_of_idle h'.pending_eq_none]

theorem replay_cons (r : Resolver) (context : Context) (delay now : Nat) (k : Keystroke)
    (rest : List Keystroke) :
    (r.replay context delay now (k :: rest)).1 =
      r.report context now k ::
        ((r.handle context k now).2.replay context delay (now + delay) rest).1 := rfl

/-! ## One registry under two machines -/

section

variable {registry : Registry} {m m' : Machine} {k : Keystroke}

/-- Machines that have made the same of a keystroke report it alike. -/
theorem report_eq_of_same (h : Machine.Same m now m' now' (m.handle registry context k now)
    (m'.handle registry context k now')) :
    report ⟨registry, m⟩ context now k = report ⟨registry, m'⟩ context now' k := by
  simp only [report, handle]
  generalize m.handle registry context k now = after at h ⊢
  generalize m'.handle registry context k now' = after' at h ⊢
  cases h with
  | idle => rfl
  | waits => rfl

/-- From machines in step, replays with delays on the same side of the timeout are reported
alike. -/
theorem replay_eq_of_inStep (h : Machine.InStep timeout m now m' now')
    (hdelay : delay < timeout.ticks ↔ delay' < timeout.ticks) (keystrokes : List Keystroke) :
    (replay ⟨registry, m⟩ context delay now keystrokes).1 =
      (replay ⟨registry, m'⟩ context delay' now' keystrokes).1 := by
  induction keystrokes generalizing m m' now now' with
  | nil => rfl
  | cons k rest ih =>
    have hsame := h.same_handle registry context k
    rw [replay_cons, replay_cons, report_eq_of_same hsame]
    exact congrArg _ (ih (hsame.inStep h hdelay))

/-- If each keystroke comes too late for the chord before it, each is reported as by an idle
machine. -/
theorem replay_eq_map_report (h : Machine.InStep timeout m now m' now') (hidle : m'.pending = none)
    (hlate : timeout.ticks ≤ delay) (keystrokes : List Keystroke) :
    (replay ⟨registry, m⟩ context delay now keystrokes).1 =
      keystrokes.map (report ⟨registry, m'⟩ context now') := by
  induction keystrokes generalizing m now with
  | nil => rfl
  | cons k rest ih =>
    have hsame := h.same_handle registry context k
    rw [replay_cons, report_eq_of_same hsame, List.map_cons]
    exact congrArg _ (ih (hsame.inStep_idle h hidle hlate))

end

/-- A resolver at rest reports only commands that are bound to the keystroke alone. -/
theorem AtRest.effectiveKeys_of_report (h : r.AtRest) {c : Command} (hc : c ∈ r.registry.commands)
    {k : Keystroke} (hcommand : (r.report context now k).resolution.command = some c.id) :
    c.effectiveKeys = some (.ofKeystroke k) := by
  have hfire := (command_ofOutcome_eq_some_iff _ _).mp hcommand
  have hbound := h.ready.boundTo_of_fire h.pending_eq_none h.reachable.registry.indexed hc hfire
  exact Command.boundTo_keystrokes_iff.mp hbound

/-- Let two reachable resolvers have the same registry, timeout and policy, and let neither record
nor have a chord pending. Keystrokes that are replayed in one context are reported alike, whenever
the replays start, if both delays are less than the timeout or neither is. If the delays are not
less than the timeout, each keystroke is reported as if it were typed alone, and only commands are
reported that have a keybinding of a single keystroke. -/
theorem replay_eq_of_delay (hr : r.AtRest) (hr' : r'.AtRest) (hregistry : r.registry = r'.registry)
    (htimeout : r.machine.timeout = r'.machine.timeout)
    (hpolicy : r.machine.policy = r'.machine.policy)
    (hdelay : delay < r.machine.timeout.ticks ↔ delay' < r.machine.timeout.ticks)
    (context : Context) (start start' : Nat) (keystrokes : List Keystroke) :
    (r.replay context delay start keystrokes).1 = (r'.replay context delay' start' keystrokes).1 ∧
      (r.machine.timeout.ticks ≤ delay →
        (r.replay context delay start keystrokes).1 = keystrokes.map (r'.report context start') ∧
        ∀ report ∈ (r.replay context delay start keystrokes).1, ∀ c ∈ r.registry.commands,
          report.resolution.command = some c.id →
            ∃ k ∈ keystrokes, c.effectiveKeys = some (.ofKeystroke k)) := by
  have hstep := hr.inStep hr' htimeout hpolicy start start'
  obtain ⟨registry, m⟩ := r
  obtain ⟨_, m'⟩ := r'
  obtain rfl : registry = _ := hregistry
  refine ⟨replay_eq_of_inStep hstep hdelay keystrokes, fun hlate => ?_⟩
  have hreports : (replay ⟨registry, m⟩ context delay start keystrokes).1 =
      keystrokes.map (report ⟨registry, m'⟩ context start') :=
    replay_eq_map_report hstep hr'.pending_eq_none hlate keystrokes
  refine ⟨hreports, ?_⟩
  rw [hreports]
  intro _ hreport c hc hcommand
  obtain ⟨k, hk, rfl⟩ := List.mem_map.mp hreport
  exact ⟨k, hk, hr'.effectiveKeys_of_report hc hcommand⟩

/-- Three quarters of a second, in nanoseconds. -/
def waiting : Timeout :=
  Clock.nanoseconds.clamp 750000000

/-- The chord is reported alike if its keystrokes come at once or one nanosecond before the
timeout. If the second one comes just at the timeout, each is reported as if it were typed alone. -/
theorem replay_settingsAndSave :
    ((ofRegistry (.ofList settingsAndSave) waiting .reevaluate).replay .empty 749999999 0
          [ctrlK, ctrlS]).1 =
        ((ofRegistry (.ofList settingsAndSave) waiting .reevaluate).replay .empty 0 5000
          [ctrlK, ctrlS]).1 ∧
      ((ofRegistry (.ofList settingsAndSave) waiting .reevaluate).replay .empty 750000000 0
          [ctrlK, ctrlS]).1 =
        [ctrlK, ctrlS].map
          ((ofRegistry (.ofList settingsAndSave) waiting .reevaluate).report .empty 5000) := by
  have hrest :=
    atRest_ofRegistry (Registry.reachable_ofList settingsAndSave) waiting .reevaluate
  have hsooner : 749999999 < waiting.ticks ↔ 0 < waiting.ticks := by decide
  have hlater : 750000000 < waiting.ticks ↔ 2000000000 < waiting.ticks := by decide
  have hquick := replay_eq_of_delay hrest hrest rfl rfl rfl hsooner .empty 0 5000 [ctrlK, ctrlS]
  have hslow := replay_eq_of_delay hrest hrest rfl rfl rfl hlater .empty 0 5000 [ctrlK, ctrlS]
  exact ⟨hquick.1, (hslow.2 (by decide)).1⟩

end Resolver

end KeyChord
