import KeyChord.Proofs.Chord.Handling
import KeyChord.Proofs.Registry.Scan
import Mathlib.Data.Set.Basic
import Mathlib.Tactic.TFAE

/-!
# Which commands can fire

An idle machine prefers the start of a chord to a single keystroke, a pending chord prefers the
shorter keybinding. Which commands can fire at all follows from the two rules.

Keystrokes come from a registry `r` that does not change, in contexts from a set `contexts`. The
module introduces:

* `Awaitable r contexts typed`: the keystrokes `typed` can be made a pending chord, one after
  another.
* `CanFire r contexts c`: there is a chord that can be made pending, and a keystroke that triggers
  `c` after it.

Whatever happens, a pending chord is awaitable (`awaitable_step`), so that only commands that can
fire do (`canFire_of_run`); and each of them does in some run (`exists_run_of_canFire`). Which
commands these are by their keybindings, `canFire_iff` says in general, `canFire_iff_of_isEnabled`
for commands that are active in all contexts, and `exists_run_fires_tfae` for one context.
-/

namespace KeyChord.Chord.Machine

/-- A keystroke is looked up in the registry `r` and in one of the contexts. -/
def Event.Within (r : Registry) (contexts : Set Context) : Event → Prop
  | .keystroke r' context _ _ => r' = r ∧ context ∈ contexts
  | _ => True

/-- A chord of the keystrokes can be made pending: after each of them, an active command goes on,
and from the second on none is triggered. -/
def Awaitable (r : Registry) (contexts : Set Context) (typed : List Keystroke) : Prop :=
  ∀ sequence, sequence <+: typed → sequence ≠ [] →
    ∃ context ∈ contexts, r.hasExtension sequence context = true ∧
      (2 ≤ sequence.length → r.firstExact? sequence context = none)

/-- After a chord that can be made pending, a keystroke triggers the command. If it is a single
keystroke, it starts no chord. -/
def CanFire (r : Registry) (contexts : Set Context) (c : Command) : Prop :=
  ∃ typed k, Awaitable r contexts typed ∧
    ∃ context ∈ contexts, r.firstExact? (typed ++ [k]) context = some c ∧
      (typed = [] → r.hasExtension [k] context = false)

variable {r : Registry} {contexts : Set Context} {typed : List Keystroke} {k : Keystroke}
  {m : Machine}

/-! ## Whatever fires can fire -/

/-- The chord of no keystrokes is no chord to be made. -/
theorem awaitable_nil : Awaitable r contexts [] := by
  intro sequence hstart hne
  exact absurd (List.prefix_nil.mp hstart) hne

/-- An awaitable chord and a keystroke after which it is still awaited make an awaitable chord. -/
theorem Awaitable.concat (h : Awaitable r contexts typed) {context : Context}
    (hcontext : context ∈ contexts) (hextension : r.hasExtension (typed ++ [k]) context = true)
    (hchord : typed ≠ [] → r.firstExact? (typed ++ [k]) context = none) :
    Awaitable r contexts (typed ++ [k]) := by
  intro sequence hstart hne
  rcases List.prefix_concat_iff.mp hstart with rfl | hstart
  · refine ⟨context, hcontext, hextension, fun hlength => hchord ?_⟩
    rintro rfl
    simp at hlength
  · exact h sequence hstart hne

/-- The keystrokes that a keystroke goes with are those of the pending chord, or none. -/
theorem inTime_eq_nil_or (m : Machine) (now : Nat) :
    m.inTime now = [] ∨ m.inTime now = m.keystrokes := by
  rw [inTime]
  rcases expire_cases m now with ⟨h, -⟩ | ⟨h, -⟩ <;> rw [h]
  · exact Or.inr rfl
  · exact Or.inl rfl

/-- What a keystroke is looked up behind is awaitable if the pending chord is. -/
theorem Awaitable.of_looksUp (h : Awaitable r contexts m.keystrokes) {r' : Registry}
    {context : Context} {now : Nat} (htyped : m.LooksUp r' context k now typed) :
    Awaitable r contexts typed := by
  rcases htyped with rfl | ⟨rfl, -⟩
  · rcases inTime_eq_nil_or m now with hnil | heq
    · rw [hnil]
      exact awaitable_nil
    · rw [heq]
      exact h
  · exact awaitable_nil

/-- The pending chord stays awaitable, whatever happens. -/
theorem awaitable_step (hsound : m.Sound) (h : Awaitable r contexts m.keystrokes) {event : Event}
    (hevent : event.Within r contexts) : Awaitable r contexts (m.step event).2.keystrokes := by
  cases event with
  | keystroke r' context k now =>
    obtain ⟨rfl, hcontext⟩ := hevent
    have hhandling := handling_handle hsound r' context k now
    rw [step]
    generalize m.handle r' context k now = after at hhandling ⊢
    -- Only a keystroke that makes or keeps a chord pending adds to it.
    cases hhandling with
    | recorded => exact h
    | fires => exact awaitable_nil
    | breaks => exact awaitable_nil
    | misses => exact awaitable_nil
    | waits hrecording htyped hextension hchord =>
      exact (h.of_looksUp htyped).concat hcontext hextension hchord
  | tick now =>
    rcases expire_cases m now with ⟨hexpire, -⟩ | ⟨hexpire, -⟩ <;> rw [step, hexpire]
    · exact h
    · exact awaitable_nil
  | timer token =>
    rcases timerFired_cases m token with hfired | hfired <;> rw [step, hfired]
    · exact h
    · exact awaitable_nil
  | cancel => exact awaitable_nil
  | record on =>
    cases on with
    | true => exact awaitable_nil
    | false => exact h
  | setTimeout time => exact h
  | setPolicy policy => exact h

/-- A command that fires while the pending chord is awaitable can fire. -/
theorem canFire_of_step (hsound : m.Sound) (h : Awaitable r contexts m.keystrokes)
    {event : Event} (hevent : event.Within r contexts) {id : String}
    (hfire : (m.step event).1 = .outcome (.fire id)) : ∃ c, c.id = id ∧ CanFire r contexts c := by
  cases event with
  | keystroke r' context k now =>
    obtain ⟨rfl, hcontext⟩ := hevent
    have hhandling := handling_handle hsound r' context k now
    rw [step] at hfire
    generalize m.handle r' context k now = after at hhandling hfire
    cases hhandling with
    | recorded => cases hfire
    | waits => cases hfire
    | breaks => cases hfire
    | misses => cases hfire
    | @fires typed c hrecording htyped hexact hsingle =>
      cases hfire
      exact ⟨c, rfl, typed, k, h.of_looksUp htyped, context, hcontext, hexact, hsingle⟩
  | _ => cases hfire

/-- Only commands that can fire do, whatever else happens in between. -/
theorem canFire_of_run (hsound : m.Sound) (h : Awaitable r contexts m.keystrokes)
    {events : List Event} (hevents : ∀ event ∈ events, event.Within r contexts) {id : String}
    (hfire : Answer.outcome (.fire id) ∈ (m.run events).1) :
    ∃ c, c.id = id ∧ CanFire r contexts c := by
  induction events generalizing m with
  | nil => cases hfire
  | cons event events ih =>
    obtain ⟨hevent, hevents⟩ := List.forall_mem_cons.mp hevents
    rw [run_cons] at hfire
    rcases List.mem_cons.mp hfire with hfire | hfire
    · exact canFire_of_step hsound h hevent hfire.symm
    · exact ih (sound_step hsound event) (awaitable_step hsound h hevent) hevents hfire

/-! ## Whatever can fire does so in some run -/

/-- The keystrokes of a chord that has just been made pending are in time for a while. -/
theorem inTime_await (m : Machine) (sequence : List Keystroke) (now : Nat) :
    (m.await sequence now).inTime now = sequence := by
  refine inTime_of_lt rfl rfl (?_ : now < now + m.timeout.ticks)
  have hpos := m.timeout.ticks_pos
  omega

/-- The start of an awaitable chord is awaitable. -/
theorem Awaitable.of_isPrefix (h : Awaitable r contexts typed) {sequence : List Keystroke}
    (hstart : sequence <+: typed) : Awaitable r contexts sequence :=
  fun shorter hshorter hne => h shorter (hshorter.trans hstart) hne

/-- Typing an awaitable chord all at once makes it pending, for every timeout and policy. -/
theorem exists_strokes_of_awaitable (h : Awaitable r contexts typed) :
    ∃ strokes : List Stroke, (∀ s ∈ strokes, s.context ∈ contexts) ∧
      ∀ timeout policy,
        ((idle timeout policy).run (strokes.map (.ofStroke r))).2.recording = false ∧
          ((idle timeout policy).run (strokes.map (.ofStroke r))).2.inTime 0 = typed := by
  -- The keystrokes are typed one after another, so the induction takes the last one off.
  induction typed using List.reverseRecOn with
  | nil => exact ⟨[], fun s hs => (by cases hs), fun _ _ => ⟨rfl, inTime_of_idle rfl⟩⟩
  | append_singleton typed k ih =>
    obtain ⟨strokes, hstrokes, hrun⟩ := ih (h.of_isPrefix (List.prefix_append typed [k]))
    obtain ⟨context, hcontext, hextension, hexact⟩ := h _ (List.prefix_refl _) (by simp)
    refine ⟨strokes ++ [⟨k, context, 0⟩], ?_, fun timeout policy => ?_⟩
    · exact List.forall_mem_append.mpr ⟨hstrokes, List.forall_mem_singleton.mpr hcontext⟩
    · obtain ⟨hrecording, htyped⟩ := hrun timeout policy
      have hsound := sound_run (sound_idle timeout policy) (strokes.map (.ofStroke r))
      rw [List.map_append, run_append]
      generalize ((idle timeout policy).run (strokes.map (.ofStroke r))).2 = m
        at hrecording htyped hsound ⊢
      have hhandle : m.handle r context k 0 = (.pending, m.await (typed ++ [k]) 0) := by
        subst htyped
        refine hsound.handle_waits hrecording hextension fun hne => hexact ?_
        have := List.length_pos_iff.mpr hne
        rw [List.length_append, List.length_singleton]
        omega
      have hstep : m.step (.ofStroke r ⟨k, context, 0⟩) =
          (.outcome .pending, m.await (typed ++ [k]) 0) := by
        rw [Event.ofStroke, step, hhandle]
      rw [List.map_singleton, run_cons, run_nil, hstep]
      exact ⟨hrecording, inTime_await m _ 0⟩

/-- Each command that can fire fires in some run of keystrokes, for every timeout and policy. -/
theorem exists_run_of_canFire {c : Command} (h : CanFire r contexts c) :
    ∃ strokes : List Stroke, (∀ s ∈ strokes, s.context ∈ contexts) ∧
      ∀ timeout policy, Answer.outcome (.fire c.id) ∈
        ((idle timeout policy).run (strokes.map (.ofStroke r))).1 := by
  obtain ⟨typed, k, hawaitable, context, hcontext, hexact, hsingle⟩ := h
  obtain ⟨strokes, hstrokes, hrun⟩ := exists_strokes_of_awaitable hawaitable
  refine ⟨strokes ++ [⟨k, context, 0⟩], ?_, fun timeout policy => ?_⟩
  · exact List.forall_mem_append.mpr ⟨hstrokes, List.forall_mem_singleton.mpr hcontext⟩
  · obtain ⟨hrecording, htyped⟩ := hrun timeout policy
    have hsound := sound_run (sound_idle timeout policy) (strokes.map (.ofStroke r))
    rw [List.map_append, run_append]
    generalize ((idle timeout policy).run (strokes.map (.ofStroke r))).2 = m
      at hrecording htyped hsound ⊢
    have hhandle : m.handle r context k 0 = (.fire c.id, m.cancel) := by
      subst htyped
      exact hsound.handle_fires hrecording hexact hsingle
    rw [List.map_singleton, run_cons, Event.ofStroke, step, hhandle]
    exact List.mem_append_right _ List.mem_cons_self

/-- A command of the registry that fires in some run can fire. -/
theorem canFire_of_fires (hindexed : r.Indexed) {c : Command} (hmem : c ∈ r.commands)
    {timeout : Timeout} {policy : BreakPolicy} {events : List Event}
    (hevents : ∀ event ∈ events, event.Within r contexts)
    (hfire : Answer.outcome (.fire c.id) ∈ ((idle timeout policy).run events).1) :
    CanFire r contexts c := by
  obtain ⟨c', hid, hcanFire⟩ :=
    canFire_of_run (sound_idle timeout policy) awaitable_nil hevents hfire
  have hmem' : c' ∈ r.commands := by
    obtain ⟨typed, k, -, context, -, hexact, -⟩ := hcanFire
    exact (hindexed.firstExact?_eq_some_iff.mp hexact).1
  rwa [hindexed.eq_of_id_eq hmem hmem' hid.symm]

/-! ## The keybindings of the commands that can fire -/

/-- A command can fire if each proper start of its keybinding is the start of a chord that triggers
nothing itself, and the keybinding triggers the command and, if it is a single keystroke, starts no
chord. -/
theorem canFire_iff (hindexed : r.Indexed) {c : Command} {kb : Keybinding}
    (hkeys : c.effectiveKeys = some kb) :
    CanFire r contexts c ↔
      (∀ sequence, sequence <+: kb.keystrokes → sequence ≠ [] → sequence ≠ kb.keystrokes →
        ∃ context ∈ contexts, r.hasExtension sequence context = true ∧
          (2 ≤ sequence.length → r.firstExact? sequence context = none)) ∧
      ∃ context ∈ contexts, r.firstExact? kb.keystrokes context = some c ∧
        (kb.length = 1 → r.hasExtension kb.keystrokes context = false) := by
  constructor
  · rintro ⟨typed, k, hawaitable, context, hcontext, hexact, hsingle⟩
    obtain ⟨-, ⟨kb', hkb', hconcat⟩, -⟩ := hindexed.firstExact?_eq_some_iff.mp hexact
    obtain rfl : kb = kb' := Option.some.inj (hkeys.symm.trans hkb')
    rw [hconcat, Keybinding.length, hconcat]
    refine ⟨fun sequence hstart hne hproper => hawaitable sequence ?_ hne,
      context, hcontext, hexact, fun hlength => ?_⟩
    · exact (List.prefix_concat_iff.mp hstart).resolve_left hproper
    · rw [List.length_append, List.length_singleton] at hlength
      have hnil : typed = [] := List.length_eq_zero_iff.mp (by omega)
      rw [hnil]
      exact hsingle hnil
  · rintro ⟨hstarts, context, hcontext, hexact, hsingle⟩
    -- The last keystroke triggers the command, and those before it are the chord.
    have hconcat := List.dropLast_append_getLast kb.nonempty
    refine ⟨kb.keystrokes.dropLast, kb.keystrokes.getLast kb.nonempty,
      fun sequence hstart hne => hstarts sequence ?_ hne ?_, context, hcontext, ?_, fun hnil => ?_⟩
    · exact hstart.trans (List.dropLast_prefix _)
    · rintro rfl
      have hle := hstart.length_le
      have hpos := List.length_pos_iff.mpr hne
      rw [List.length_dropLast] at hle
      omega
    · rw [hconcat]
      exact hexact
    · rw [hnil, List.nil_append] at hconcat
      rw [hconcat]
      exact hsingle (by rw [Keybinding.length, ← hconcat, List.length_singleton])

/-- A command goes on after each proper start of its keybinding. -/
theorem goesOnAfter_of_isPrefix {c : Command} {kb : Keybinding} (hkeys : c.effectiveKeys = some kb)
    {sequence : List Keystroke} (hstart : sequence <+: kb.keystrokes)
    (hproper : sequence ≠ kb.keystrokes) : c.GoesOnAfter sequence :=
  ⟨kb, hkeys, hstart, hproper.symm⟩

/-- A command that is active in all of the contexts can fire if, for each start of its keybinding of
two keystrokes or more, no command is bound to it in some context, and in some context no earlier
command takes the keybinding from it, nor, if it is a single keystroke, a chord that it starts. -/
theorem canFire_iff_of_isEnabled (hindexed : r.Indexed) {c : Command} {kb : Keybinding}
    (hmem : c ∈ r.commands) (hsome : contexts.Nonempty)
    (henabled : ∀ context ∈ contexts, c.isEnabled context = true)
    (hkeys : c.effectiveKeys = some kb) :
    CanFire r contexts c ↔
      (∀ sequence, sequence <+: kb.keystrokes → sequence ≠ kb.keystrokes → 2 ≤ sequence.length →
        ∃ context ∈ contexts, ∀ d ∈ r.commands, d.isEnabled context = true →
          ¬d.BoundTo sequence) ∧
      ∃ context ∈ contexts,
        (∀ d, r.Before d c → d.isEnabled context = true → ¬d.BoundTo kb.keystrokes) ∧
        (kb.length = 1 → ∀ d ∈ r.commands, d.isEnabled context = true →
          ¬d.GoesOnAfter kb.keystrokes) := by
  rw [canFire_iff hindexed hkeys]
  constructor
  · rintro ⟨hstarts, context, hcontext, hexact, hsingle⟩
    refine ⟨fun sequence hstart hproper htwo => ?_, context, hcontext, ?_, fun hlength d hd hde
      hgoes => ?_⟩
    · have hne : sequence ≠ [] := List.ne_nil_of_length_pos (by omega)
      obtain ⟨context, hcontext, -, hnone⟩ := hstarts sequence hstart hne hproper
      exact ⟨context, hcontext, hindexed.firstExact?_eq_none_iff.mp (hnone htwo)⟩
    · exact (hindexed.firstExact?_eq_some_iff.mp hexact).2.2.2
    · have hextension := (hindexed.hasExtension_iff_exists kb.nonempty).mpr ⟨d, hd, hgoes, hde⟩
      rw [hsingle hlength] at hextension
      cases hextension
  · rintro ⟨hstarts, context, hcontext, hfirst, hsingle⟩
    refine ⟨fun sequence hstart hne hproper => ?_, context, hcontext, ?_, fun hlength => ?_⟩
    · -- The command itself goes on after each proper start of its keybinding.
      have hextension : ∀ context ∈ contexts, r.hasExtension sequence context = true :=
        fun context hcontext => (hindexed.hasExtension_iff_exists hne).mpr
          ⟨c, hmem, goesOnAfter_of_isPrefix hkeys hstart hproper, henabled context hcontext⟩
      by_cases htwo : 2 ≤ sequence.length
      · obtain ⟨context, hcontext, hnone⟩ := hstarts sequence hstart hproper htwo
        exact ⟨context, hcontext, hextension context hcontext,
          fun _ => hindexed.firstExact?_eq_none_iff.mpr hnone⟩
      · obtain ⟨context, hcontext⟩ := hsome
        exact ⟨context, hcontext, hextension context hcontext, fun h => absurd h htwo⟩
    · exact hindexed.firstExact?_eq_some_iff.mpr
        ⟨hmem, ⟨kb, hkeys, rfl⟩, henabled context hcontext, hfirst⟩
    · rw [← Bool.not_eq_true, hindexed.hasExtension_iff_exists kb.nonempty]
      rintro ⟨d, hd, hgoes, hde⟩
      exact hsingle hlength d hd hde hgoes

/-- In one context, the commands that can fire are those that no earlier command takes the
keybinding from, and which no chord swallows: a single keystroke must not start a chord, and no
start of two keystrokes or more of a chord must trigger a command. -/
theorem canFire_singleton_iff (hindexed : r.Indexed) {context : Context} {c : Command}
    {kb : Keybinding} (hmem : c ∈ r.commands) (henabled : c.isEnabled context = true)
    (hkeys : c.effectiveKeys = some kb) :
    CanFire r {context} c ↔
      (∀ d, r.Before d c → d.isEnabled context = true → d.effectiveKeys ≠ some kb) ∧
      (kb.length = 1 → ∀ d ∈ r.commands, d.isEnabled context = true →
        ¬d.GoesOnAfter kb.keystrokes) ∧
      (2 ≤ kb.length → ∀ d ∈ r.commands, d.isEnabled context = true →
        ∀ kb' ∈ d.effectiveKeys, kb'.keystrokes <+: kb.keystrokes → kb' ≠ kb →
          ¬2 ≤ kb'.length) := by
  have hall : ∀ context' ∈ ({context} : Set Context), c.isEnabled context' = true := by
    rintro _ rfl
    exact henabled
  have hsome : ({context} : Set Context).Nonempty := ⟨context, rfl⟩
  rw [canFire_iff_of_isEnabled hindexed hmem hsome hall hkeys]
  constructor
  · rintro ⟨hstarts, _, rfl, hfirst, hsingle⟩
    refine ⟨fun d hd hde hdk => hfirst d hd hde (Command.boundTo_keystrokes_iff.mpr hdk), hsingle,
      fun _ d hd hde kb' hkb' hstart hne htwo => ?_⟩
    obtain ⟨_, rfl, hnone⟩ :=
      hstarts kb'.keystrokes hstart (fun heq => hne (Keybinding.ext heq)) htwo
    exact hnone d hd hde ⟨kb', hkb', rfl⟩
  · rintro ⟨hfirst, hsingle, hchord⟩
    refine ⟨fun sequence hstart hproper htwo => ⟨context, rfl, fun d hd hde => ?_⟩, context, rfl,
      fun d hd hde hdb => ?_, hsingle⟩
    · rintro ⟨kb', hkb', rfl⟩
      refine hchord (Nat.le_trans htwo hstart.length_le) d hd hde kb' hkb' hstart ?_ htwo
      rintro rfl
      exact hproper rfl
    · exact hfirst d hd hde (Command.boundTo_keystrokes_iff.mp hdb)

/-- Over a reachable registry and in one context, let the active command `c` have the keybinding
`kb`. The following are the same: some run of keystrokes fires `c`; one run of keystrokes fires `c`
whatever the timeout and the policy; some run fires `c` in which anything may happen beside
keystrokes in that context; no active command registered earlier has the keybinding `kb`, no active
command goes on after `kb` if it is a single keystroke, and no active command has a proper start of
`kb` of two keystrokes or more as its keybinding. -/
theorem exists_run_fires_tfae (hreach : r.Reachable) (context : Context) {c : Command}
    {kb : Keybinding} (hmem : c ∈ r.commands) (henabled : c.isEnabled context = true)
    (hkeys : c.effectiveKeys = some kb) :
    List.TFAE [
      ∃ (timeout : Timeout) (policy : BreakPolicy) (strokes : List Stroke),
        (∀ s ∈ strokes, s.context = context) ∧
          Answer.outcome (.fire c.id) ∈
            ((idle timeout policy).run (strokes.map (.ofStroke r))).1,
      ∃ strokes : List Stroke, (∀ s ∈ strokes, s.context = context) ∧
        ∀ timeout policy, Answer.outcome (.fire c.id) ∈
          ((idle timeout policy).run (strokes.map (.ofStroke r))).1,
      ∃ (timeout : Timeout) (policy : BreakPolicy) (events : List Event),
        (∀ event ∈ events, event.Within r {context}) ∧
          Answer.outcome (.fire c.id) ∈ ((idle timeout policy).run events).1,
      (∀ d, r.Before d c → d.isEnabled context = true → d.effectiveKeys ≠ some kb) ∧
        (kb.length = 1 → ∀ d ∈ r.commands, d.isEnabled context = true →
          ¬d.GoesOnAfter kb.keystrokes) ∧
        (2 ≤ kb.length → ∀ d ∈ r.commands, d.isEnabled context = true →
          ∀ kb' ∈ d.effectiveKeys, kb'.keystrokes <+: kb.keystrokes → kb' ≠ kb →
            ¬2 ≤ kb'.length)] := by
  have hiff := canFire_singleton_iff hreach.indexed hmem henabled hkeys
  tfae_have 4 → 2 := fun hfree => exists_run_of_canFire (hiff.mpr hfree)
  tfae_have 2 → 1 := fun ⟨strokes, hstrokes, hrun⟩ =>
    ⟨default, default, strokes, hstrokes, hrun default default⟩
  tfae_have 1 → 3 := by
    rintro ⟨timeout, policy, strokes, hstrokes, hfire⟩
    refine ⟨timeout, policy, strokes.map (.ofStroke r), fun event hevent => ?_, hfire⟩
    obtain ⟨s, hs, rfl⟩ := List.mem_map.mp hevent
    exact ⟨rfl, hstrokes s hs⟩
  tfae_have 3 → 4 := fun ⟨_, _, _, hevents, hfire⟩ =>
    hiff.mp (canFire_of_fires hreach.indexed hmem hevents hfire)
  tfae_finish

/-- Three commands, of which each starts the chord of the next. -/
def nested : List Command :=
  [.ofKeys "one" ⟨[⟨"a", {}⟩], by decide⟩, .ofKeys "two" ⟨[⟨"a", {}⟩, ⟨"b", {}⟩], by decide⟩,
    .ofKeys "three" ⟨[⟨"a", {}⟩, ⟨"b", {}⟩, ⟨"c", {}⟩], by decide⟩]

/-- Of three commands that start one another's chords, the second fires and the third never does:
a chord takes precedence over a single keystroke, but not over the start of a chord. -/
theorem exists_run_fires_second_not_third :
    (∃ (timeout : Timeout) (policy : BreakPolicy) (strokes : List Stroke),
      (∀ s ∈ strokes, s.context = .empty) ∧ Answer.outcome (.fire "two") ∈
        ((idle timeout policy).run (strokes.map (.ofStroke (.ofList nested)))).1) ∧
      ¬∃ (timeout : Timeout) (policy : BreakPolicy) (strokes : List Stroke),
        (∀ s ∈ strokes, s.context = .empty) ∧ Answer.outcome (.fire "three") ∈
          ((idle timeout policy).run (strokes.map (.ofStroke (.ofList nested)))).1 := by
  have hreach := Registry.reachable_ofList nested
  have hcommands : (Registry.ofList nested).commands = nested :=
    Registry.commands_ofList (by decide)
  generalize Registry.ofList nested = r at hreach hcommands
  have hmem : ∀ c ∈ nested, c ∈ r.commands := fun c hc => hcommands ▸ hc
  have hsecond := (exists_run_fires_tfae hreach .empty (hmem nested[1] (by decide)) rfl rfl).out 0 3
  have hthird := (exists_run_fires_tfae hreach .empty (hmem nested[2] (by decide)) rfl rfl).out 0 3
  have hfirst : ∀ d ∈ nested, [d, nested[1]].Sublist nested →
      d.effectiveKeys ≠ nested[1].effectiveKeys := by decide
  refine ⟨hsecond.mpr ⟨fun d hd _ => ?_, ?_, ?_⟩, fun hfires => ?_⟩
  · rw [Registry.Before, hcommands] at hd
    exact hfirst d (hd.subset List.mem_cons_self) hd
  · exact fun hlength => absurd hlength (by decide)
  · rw [hcommands]
    decide
  · obtain ⟨-, -, hchord⟩ := hthird.mp hfires
    exact hchord (by decide) nested[1] (hmem _ (by decide)) rfl _ rfl (by decide) (by decide)
      (by decide)

end KeyChord.Chord.Machine
