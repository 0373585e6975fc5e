import KeyChord.Proofs.Resolver.Unrivalled

/-!
# What the policy for broken chords decides

The policy comes into play at one place only: when a keystroke breaks a chord. Up to there it makes
no difference, and a keystroke that is looked up again there finds nothing left of the chord.

The module introduces:

* `m.HandlesAfresh r context k now`: the machine does with the keystroke what an idle one does.
* `m.LooksUpAgain`: the machine swallows nothing, and leaves no keystroke unhandled that means
  something by itself.
* `r.outcomes events`: what the machine of a resolver makes of the keystrokes among some events. It
  tells a keystroke that is swallowed from one that makes a chord pending.
* `r.withPolicy policy`: the resolver with another policy.
* `DifferAtBreaks`: two resolvers run alike, but for the keystrokes that break a chord.

A keystroke that is not swallowed comes to the same under another policy
(`Machine.handle_setPolicy`). The main statement is `Resolver.policies_differ_at_breaks`.
-/

namespace KeyChord

namespace Chord.Machine

variable {m : Machine} {r : Registry} {context : Context} {k : Keystroke} {now : Nat}

/-! ## Machines that differ in their policy -/

theorem expire_setPolicy (m : Machine) (policy : BreakPolicy) (now : Nat) :
    (m.setPolicy policy).expire now = ((m.expire now).1, (m.expire now).2.setPolicy policy) := by
  have hdeadline : (m.setPolicy policy).deadline = m.deadline := rfl
  rw [expire, expire, hdeadline]
  cases m.deadline with
  | none => rfl
  | some deadline =>
    by_cases hdue : deadline ≤ now
    · simp only [if_pos hdue]
      rfl
    · simp only [if_neg hdue]

theorem timerFired_setPolicy (m : Machine) (policy : BreakPolicy) (token : Nat) :
    (m.setPolicy policy).timerFired token =
      ((m.timerFired token).1, (m.timerFired token).2.setPolicy policy) := by
  have htoken : (m.setPolicy policy).token = m.token := rfl
  rw [timerFired, timerFired, htoken]
  by_cases hlive : m.token = some token
  · simp only [if_pos hlive]
    rfl
  · simp only [if_neg hlive]

theorem inTime_setPolicy (m : Machine) (policy : BreakPolicy) (now : Nat) :
    (m.setPolicy policy).inTime now = m.inTime now := by
  rw [inTime, expire_setPolicy]
  rfl

/-- A chord is broken whatever happens to the keystroke that breaks it. -/
theorem Breaks.setPolicy (h : m.Breaks r context k now) (policy : BreakPolicy) :
    (m.setPolicy policy).Breaks r context k now where
  in_time := by rw [inTime_setPolicy]; exact h.in_time
  no_exact := by rw [inTime_setPolicy]; exact h.no_exact
  no_extension := by rw [inTime_setPolicy]; exact h.no_extension

theorem Sound.setPolicy (h : m.Sound) (policy : BreakPolicy) : (m.setPolicy policy).Sound :=
  ⟨h.timed, h.nonempty, h.recording⟩

/-- Under a policy that swallows, keystrokes are looked up behind those of the pending chord
only. -/
theorem LooksUp.eq_inTime {typed : List Keystroke} (h : m.LooksUp r context k now typed)
    (hpolicy : m.policy = .swallow) : typed = m.inTime now := by
  rcases h with htyped | ⟨-, hreevaluate, -⟩
  · exact htyped
  · rw [hpolicy] at hreevaluate
    cases hreevaluate

/-- A keystroke that is not swallowed comes to the same under another policy. -/
theorem handle_setPolicy (h : m.Sound) (hpolicy : m.policy = .swallow)
    (hne : (m.handle r context k now).1 ≠ .swallowed) (policy : BreakPolicy) :
    (m.setPolicy policy).handle r context k now =
      ((m.handle r context k now).1, (m.handle r context k now).2.setPolicy policy) := by
  have hother := h.setPolicy policy
  have hhandling := handling_handle h r context k now
  generalize m.handle r context k now = after at hhandling hne ⊢
  cases hhandling with
  | recorded hrecording =>
    have hstill : (m.setPolicy policy).recording = true := hrecording
    rw [handle, if_pos hstill]
  | fires hrecording htyped hexact hsingle =>
    obtain rfl := htyped.eq_inTime hpolicy
    rw [← m.inTime_setPolicy policy] at hexact hsingle
    exact hother.handle_fires hrecording hexact hsingle
  | waits hrecording htyped hextension hchord =>
    obtain rfl := htyped.eq_inTime hpolicy
    rw [← m.inTime_setPolicy policy] at hextension hchord ⊢
    exact hother.handle_waits hrecording hextension hchord
  | breaks => exact absurd rfl hne
  | misses hrecording htyped hexact hextension =>
    have hnil := htyped.eq_inTime hpolicy
    rw [← m.inTime_setPolicy policy] at hnil
    rw [hother.handle_eq hrecording, if_pos hnil.symm, start, hextension,
      if_neg Bool.false_ne_true, hexact]
    rfl

/-! ## Keystrokes that break a chord -/

/-- The machine does with the keystroke what an idle one does that waits as long for the next. -/
structure HandlesAfresh (m : Machine) (r : Registry) (context : Context) (k : Keystroke)
    (now : Nat) : Prop where
  /-- The keystroke comes to the same. -/
  outcome : ∀ policy, (m.handle r context k now).1 =
    ((idle m.timeout policy).handle r context k now).1
  /-- The same keystrokes are pending afterwards. -/
  pending : ∀ policy, (m.handle r context k now).2.pending =
    ((idle m.timeout policy).handle r context k now).2.pending
  /-- The chord is given up at the same time. -/
  deadline : ∀ policy, (m.handle r context k now).2.deadline =
    ((idle m.timeout policy).handle r context k now).2.deadline

/-- The machine looks keystrokes that break a chord up again, until it is told otherwise. -/
structure LooksUpAgain (m : Machine) : Prop where
  /-- Nothing is swallowed. -/
  swallowed_not_mem : ∀ events, (∀ policy, .setPolicy policy ∈ events → policy = .reevaluate) →
    .outcome .swallowed ∉ (m.run events).1
  /-- What is left unhandled, although the machine is not recording, means nothing by itself. -/
  unhandled : ∀ events, (∀ policy, .setPolicy policy ∈ events → policy = .reevaluate) →
    ∀ r context k now, (m.run events).2.recording = false →
      ((m.run events).2.handle r context k now).1 = .unhandled →
        ∀ timeout policy, ((idle timeout policy).handle r context k now).1 = .unhandled

/-- A machine that looks a keystroke up by itself handles it as an idle one does. -/
theorem handlesAfresh_of_handle_eq_start
    (h : m.handle r context k now = m.cancel.start r context k now) :
    m.HandlesAfresh r context k now := by
  have hidle : ∀ policy, (idle m.timeout policy).handle r context k now =
      (idle m.timeout policy).start r context k now := by
    intro policy
    rw [(sound_idle m.timeout policy).handle_eq rfl, if_pos (inTime_of_idle rfl)]
    rfl
  -- Whether the keystroke starts a chord, fires or does nothing turns on the registry alone.
  refine ⟨fun policy => ?_, fun policy => ?_, fun policy => ?_⟩ <;>
    rw [h, hidle, start, start] <;>
    cases r.hasExtension [k] context <;>
    cases r.firstExact? [k] context <;>
    rfl

/-- A machine that looks breaking keystrokes up again does so as if there had been no chord. -/
theorem Sound.handlesAfresh (h : m.Sound) (hrecording : m.recording = false)
    (hpolicy : m.policy = .reevaluate) (hbreaks : m.Breaks r context k now) :
    m.HandlesAfresh r context k now := by
  apply handlesAfresh_of_handle_eq_start
  rw [h.handle_eq hrecording, if_neg hbreaks.in_time, resume]
  have hsame : m.cancel.disarm.policy = .reevaluate := hpolicy
  simp only [hbreaks.no_exact, hbreaks.no_extension, hsame]
  rfl

/-- A keystroke is swallowed only by a machine that is not recording, and only if it breaks a
chord. The machine is idle afterwards. -/
theorem Sound.of_handle_eq_swallowed (h : m.Sound)
    (hswallowed : (m.handle r context k now).1 = .swallowed) :
    m.recording = false ∧ m.policy = .swallow ∧ m.Breaks r context k now ∧
      (m.handle r context k now).2 = m.cancel := by
  have hhandling := handling_handle h r context k now
  generalize m.handle r context k now = after at hhandling hswallowed ⊢
  cases hhandling with
  | breaks hrecording hpolicy hbreaks => exact ⟨hrecording, hpolicy, hbreaks, rfl⟩
  | _ => cases hswallowed

/-- A keystroke that means nothing to a machine that is not recording means nothing to an idle
one. -/
theorem Sound.unhandled_of_idle (h : m.Sound) (hrecording : m.recording = false)
    (hunhandled : (m.handle r context k now).1 = .unhandled) (timeout : Timeout)
    (policy : BreakPolicy) : ((idle timeout policy).handle r context k now).1 = .unhandled := by
  have hhandling := handling_handle h r context k now
  generalize m.handle r context k now = after at hhandling hunhandled
  cases hhandling with
  | recorded htrue =>
    rw [hrecording] at htrue
    cases htrue
  | misses _ _ hexact hextension =>
    rw [(sound_idle timeout policy).handle_eq rfl, if_pos (inTime_of_idle rfl), start, hextension,
      if_neg Bool.false_ne_true, hexact]
  | _ => cases hunhandled

/-- Only a setting of the policy changes it. -/
theorem policy_step (h : m.Sound) {event : Event} (hevent : ∀ policy, event ≠ .setPolicy policy) :
    (m.step event).2.policy = m.policy := by
  cases event with
  | keystroke r context k now =>
    have hhandling := handling_handle h r context k now
    change (m.handle r context k now).2.policy = m.policy
    generalize m.handle r context k now = after at hhandling ⊢
    cases hhandling <;> rfl
  | tick now =>
    rcases expire_cases m now with ⟨hexpire, -⟩ | ⟨hexpire, -⟩ <;> rw [step, hexpire]
    rfl
  | timer token =>
    rcases timerFired_cases m token with hfired | hfired <;> rw [step, hfired]
    rfl
  | record on => cases on <;> rfl
  | setPolicy policy => exact absurd rfl (hevent policy)
  | _ => rfl

/-- A machine that looks breaking keystrokes up again swallows none. -/
theorem Sound.step_ne_swallowed (h : m.Sound) (hpolicy : m.policy = .reevaluate) (event : Event) :
    (m.step event).1 ≠ .outcome .swallowed := by
  intro hswallowed
  cases event with
  | keystroke r context k now =>
    have houtcome : (m.handle r context k now).1 = .swallowed := Answer.outcome.inj hswallowed
    obtain ⟨-, hswallow, -⟩ := h.of_handle_eq_swallowed houtcome
    rw [hpolicy] at hswallow
    cases hswallow
  | _ => cases hswallowed

/-- It does not do so later either, as long as it is told nothing else. -/
theorem Sound.swallowed_not_mem_run (h : m.Sound) (hpolicy : m.policy = .reevaluate)
    {events : List Event} (hevents : ∀ policy, .setPolicy policy ∈ events → policy = .reevaluate) :
    .outcome .swallowed ∉ (m.run events).1 := by
  induction events generalizing m with
  | nil => exact List.not_mem_nil
  | cons event events ih =>
    have hafter : (m.step event).2.policy = .reevaluate := by
      by_cases hset : ∃ policy, event = .setPolicy policy
      · obtain ⟨policy, rfl⟩ := hset
        exact hevents policy List.mem_cons_self
      · rw [policy_step h fun policy heq => hset ⟨policy, heq⟩, hpolicy]
    rw [run_cons, List.mem_cons, not_or]
    exact ⟨(h.step_ne_swallowed hpolicy event).symm, ih (sound_step h event) hafter
      fun policy hmem => hevents policy (List.mem_cons_of_mem event hmem)⟩

end Chord.Machine

namespace Resolver

open Chord

/-- What the machine makes of an event that is a keystroke. -/
def outcome? (r : Resolver) : Event → Option Outcome
  | .keystroke k context now => some (r.machine.handle r.registry context k now).1
  | _ => none

/-- What the machine makes of the keystrokes among some events that happen one after another. -/
def outcomes (r : Resolver) : List Event → List Outcome
  | [] => []
  | event :: events => (r.outcome? event).toList ++ (r.step event).2.outcomes events

/-- The outcomes of some events and one more. -/
theorem outcomes_concat (r : Resolver) (events : List Event) (event : Event) :
    r.outcomes (events ++ [event]) =
      r.outcomes events ++ ((r.run events).2.outcome? event).toList := by
  induction events generalizing r with
  | nil => exact List.append_nil _
  | cons first events ih =>
    rw [List.cons_append, outcomes, outcomes, ih, List.append_assoc]
    rfl

/-- The resolver with another policy. -/
def withPolicy (r : Resolver) (policy : BreakPolicy) : Resolver :=
  { r with machine := r.machine.setPolicy policy }

/-- The same events happen to two resolvers, of which the one swallows the keystrokes that break a
chord and the other looks them up again. -/
structure DifferAtBreaks (swallowing reevaluating : Resolver) (events : List Event) : Prop where
  /-- As long as nothing is swallowed, everything is the same but for the policy. -/
  same : ∀ front, front <+: events → .swallowed ∉ swallowing.outcomes front →
    reevaluating.outcomes front = swallowing.outcomes front ∧
      reevaluating.run front =
        ((swallowing.run front).1, (swallowing.run front).2.withPolicy .reevaluate)
  /-- The first keystroke that is swallowed takes the chord and the timer with it, and is otherwise
  handled as if there had been none. -/
  swallowed : ∀ front k context now, front ++ [.keystroke k context now] <+: events →
    .swallowed ∉ swallowing.outcomes front →
      (swallowing.run front).2.outcome? (.keystroke k context now) = some .swallowed →
        ((swallowing.run front).2.step (.keystroke k context now)).2.machine.pending = none ∧
          ((swallowing.run front).2.step (.keystroke k context now)).2.machine.timer = none ∧
          (reevaluating.run front).2.machine.HandlesAfresh (reevaluating.run front).2.registry
            context k now

variable {r : Resolver} {event : Event} {events : List Event}

/-- An event that is not swallowed comes to the same under another policy. -/
theorem step_withPolicy (h : r.machine.Sound) (hpolicy : r.machine.policy = .swallow)
    (hevent : ∀ policy, event ≠ .setPolicy policy) (hne : r.outcome? event ≠ some .swallowed)
    (policy : BreakPolicy) :
    (r.withPolicy policy).outcome? event = r.outcome? event ∧
      (r.withPolicy policy).step event =
        ((r.step event).1, (r.step event).2.withPolicy policy) := by
  cases event with
  | keystroke k context now =>
    have hhandle := Machine.handle_setPolicy h hpolicy (fun heq => hne (congrArg some heq)) policy
    constructor
    · exact congrArg (fun after => some after.1) hhandle
    · exact step_keystroke hhandle
  | tick now =>
    have hmachine : (r.withPolicy policy).machine = r.machine.setPolicy policy := rfl
    rw [step, hmachine, Machine.expire_setPolicy]
    exact ⟨rfl, rfl⟩
  | timer token =>
    have hmachine : (r.withPolicy policy).machine = r.machine.setPolicy policy := rfl
    rw [step, hmachine, Machine.timerFired_setPolicy]
    exact ⟨rfl, rfl⟩
  | setPolicy policy => exact absurd rfl (hevent policy)
  | record on => cases on <;> exact ⟨rfl, rfl⟩
  | _ => exact ⟨rfl, rfl⟩

/-- Only a setting of the policy changes it. -/
theorem policy_machine_step (h : r.machine.Sound) (hevent : ∀ policy, event ≠ .setPolicy policy) :
    (r.step event).2.machine.policy = r.machine.policy := by
  rw [machine_step_eq]
  refine Machine.policy_step h fun policy heq => ?_
  cases event with
  | setPolicy policy => exact hevent policy rfl
  | _ => cases heq

/-- Some events of which none is swallowed come to the same under another policy. -/
theorem run_withPolicy (h : r.machine.Sound) (hpolicy : r.machine.policy = .swallow)
    (hevents : ∀ policy, .setPolicy policy ∉ events) (hnone : .swallowed ∉ r.outcomes events)
    (policy : BreakPolicy) :
    (r.withPolicy policy).outcomes events = r.outcomes events ∧
      (r.withPolicy policy).run events =
        ((r.run events).1, (r.run events).2.withPolicy policy) := by
  induction events generalizing r with
  | nil => exact ⟨rfl, rfl⟩
  | cons event events ih =>
    simp only [List.mem_cons, not_or] at hevents
    rw [outcomes, List.mem_append, not_or] at hnone
    have hevent : ∀ policy, event ≠ .setPolicy policy := fun policy heq =>
      (hevents policy).1 heq.symm
    have hne : r.outcome? event ≠ some .swallowed := fun heq => hnone.1 (by simp [heq])
    obtain ⟨houtcome, hstep⟩ := step_withPolicy h hpolicy hevent hne policy
    obtain ⟨houtcomes, hrun⟩ := ih (sound_machine_step h event)
      ((policy_machine_step h hevent).trans hpolicy) (fun policy => (hevents policy).2) hnone.2
    rw [outcomes, outcomes, run_cons, run_cons, houtcome, hstep, houtcomes, hrun]
    exact ⟨rfl, rfl⟩

/-- Every run leaves a sound machine. -/
theorem sound_machine_run (h : r.machine.Sound) (events : List Event) :
    (r.run events).2.machine.Sound := by
  induction events generalizing r with
  | nil => exact h
  | cons event events ih => exact ih (sound_machine_step h event)

/-- Let the same happen to two new resolvers over a registry, of which one swallows the keystrokes
that break a chord and the other looks them up again. As long as the one has swallowed nothing, all
outcomes, answers and states are the same but for the policy. When it swallows a keystroke, it is
left without a chord and a timer, and the other does with the keystroke what an idle machine does.
From whatever has happened before, a machine that looks such keystrokes up again swallows nothing,
as long as it is not told to; and what it leaves unhandled while it is not recording, an idle
machine leaves unhandled too. -/
theorem policies_differ_at_breaks (registry : Registry) (timeout : Timeout)
    (hevents : ∀ policy, .setPolicy policy ∉ events) :
    DifferAtBreaks (ofRegistry registry timeout .swallow)
        (ofRegistry registry timeout .reevaluate) events ∧
      ∀ policy past, ((Machine.idle timeout policy).run past).2.policy = .reevaluate →
        ((Machine.idle timeout policy).run past).2.LooksUpAgain := by
  constructor
  · have hidle : (ofRegistry registry timeout .swallow).machine.Sound :=
      Machine.sound_idle timeout .swallow
    have hsame : ∀ front, front <+: events →
        .swallowed ∉ (ofRegistry registry timeout .swallow).outcomes front →
        (ofRegistry registry timeout .reevaluate).outcomes front =
            (ofRegistry registry timeout .swallow).outcomes front ∧
          (ofRegistry registry timeout .reevaluate).run front =
            (((ofRegistry registry timeout .swallow).run front).1,
              ((ofRegistry registry timeout .swallow).run front).2.withPolicy .reevaluate) :=
      fun front hfront hnone =>
        run_withPolicy hidle rfl (fun policy hmem => hevents policy (hfront.subset hmem))
          hnone .reevaluate
    refine ⟨hsame, fun front k context now hfront hnone hswallowed => ?_⟩
    have hstart : front <+: events := (List.prefix_append front _).trans hfront
    have hsound := sound_machine_run hidle front
    rw [(hsame front hstart hnone).2]
    generalize ((ofRegistry registry timeout .swallow).run front).2 = s at hsound hswallowed ⊢
    obtain ⟨hrecording, -, hbreaks, hafter⟩ :=
      hsound.of_handle_eq_swallowed (Option.some.inj hswallowed)
    have hmachine : (s.step (.keystroke k context now)).2.machine = s.machine.cancel := hafter
    rw [hmachine]
    exact ⟨rfl, rfl, (hsound.setPolicy .reevaluate).handlesAfresh hrecording rfl
      (hbreaks.setPolicy .reevaluate)⟩
  · intro policy past hpolicy
    have hsound := Machine.sound_run (Machine.sound_idle timeout policy) past
    generalize ((Machine.idle timeout policy).run past).2 = m at hpolicy hsound
    refine ⟨fun future hfuture => hsound.swallowed_not_mem_run hpolicy hfuture,
      fun future _ r context k now hrecording hunhandled => ?_⟩
    exact (Machine.sound_run hsound future).unhandled_of_idle hrecording hunhandled

/-- A keystroke that starts a chord and, typed again, breaks it. -/
def startTwice : List Event :=
  [.keystroke ctrlK .empty 0] ++ [.keystroke ctrlK .empty 10]

/-- The second keystroke is swallowed, or it starts the chord anew. -/
theorem outcomes_startTwice :
    (∀ policy, .setPolicy policy ∉ startTwice) ∧
      (ofRegistry (.ofList [openSettings]) default .swallow).outcomes startTwice =
        [.pending, .swallowed] ∧
      (ofRegistry (.ofList [openSettings]) default .reevaluate).outcomes startTwice =
        [.pending, .pending] := by
  have hset : ∀ policy, .setPolicy policy ∉ startTwice := by simp [startTwice]
  have hindexed := (Registry.reachable_ofList [openSettings]).indexed
  have hcommands := commands_openSettings
  obtain ⟨hdiffer, -⟩ := policies_differ_at_breaks (.ofList [openSettings]) default hset
  generalize Registry.ofList [openSettings] = registry at *
  -- The chord goes on after its first keystroke, and no keybinding has it twice.
  have hstart : registry.hasExtension [ctrlK] .empty = true := by
    rw [hindexed.hasExtension_iff_exists (by decide), hcommands]
    exact ⟨openSettings, List.mem_singleton_self _, by decide, rfl⟩
  have hexact : registry.firstExact? [ctrlK, ctrlK] .empty = none := by
    rw [hindexed.firstExact?_eq_none_iff, hcommands]
    decide
  have hextension : registry.hasExtension [ctrlK, ctrlK] .empty = false := by
    rw [← Bool.not_eq_true, hindexed.hasExtension_iff_exists (by decide), hcommands]
    decide
  have hwaits : ∀ timeout policy now,
      (Machine.idle timeout policy).handle registry .empty ctrlK now =
        (.pending, (Machine.idle timeout policy).await [ctrlK] now) := by
    intro timeout policy now
    rw [(Machine.sound_idle timeout policy).handle_eq rfl, if_pos (Machine.inTime_of_idle rfl),
      Machine.start, if_pos hstart]
    rfl
  have hbroken : (((Machine.idle default .swallow).await [ctrlK] 0).handle registry .empty
      ctrlK 10).1 = .swallowed := by
    have htyped : ((Machine.idle default .swallow).await [ctrlK] 0).inTime 10 = [ctrlK] :=
      Machine.inTime_of_lt rfl rfl (by decide)
    rw [(Machine.sound_await (by decide) rfl).handle_eq rfl, htyped, if_neg (by decide),
      Machine.resume]
    simp only [List.cons_append, List.nil_append, hexact, hextension]
    rfl
  have hfirst : (ofRegistry registry default .swallow).outcomes [.keystroke ctrlK .empty 0] =
      [.pending] := by
    change [((Machine.idle default .swallow).handle registry .empty ctrlK 0).1] = _
    rw [hwaits]
  have hnone : .swallowed ∉ (ofRegistry registry default .swallow).outcomes
      [.keystroke ctrlK .empty 0] := by
    rw [hfirst]
    decide
  have hswallowed : ((ofRegistry registry default .swallow).run
      [.keystroke ctrlK .empty 0]).2.outcome? (.keystroke ctrlK .empty 10) = some .swallowed := by
    rw [run_cons, step_keystroke (hwaits default .swallow 0)]
    exact congrArg some hbroken
  obtain ⟨-, -, hafresh⟩ := hdiffer.swallowed [.keystroke ctrlK .empty 0] ctrlK .empty 10
    List.prefix_rfl hnone hswallowed
  have hagain : ((ofRegistry registry default .reevaluate).run
      [.keystroke ctrlK .empty 0]).2.outcome? (.keystroke ctrlK .empty 10) = some .pending := by
    refine congrArg some ((hafresh.outcome .swallow).trans ?_)
    exact congrArg Prod.fst (hwaits _ .swallow 10)
  have hsame := (hdiffer.same [.keystroke ctrlK .empty 0] (List.prefix_append _ _) hnone).1
  refine ⟨hset, ?_, ?_⟩
  · rw [startTwice, outcomes_concat, hfirst, hswallowed]
    rfl
  · rw [startTwice, outcomes_concat, hsame, hfirst, hagain]
    rfl

end Resolver

end KeyChord
