import KeyChord.Proofs.Chord.Firing
import KeyChord.Proofs.Resolver.OwnKeystrokes
import KeyChord.Proofs.Resolver.Strokes

/-!
# Commands without rivals

A keybinding that collides with no other is safe to use: whoever types it in time gets its command.

The module introduces:

* `registry.Unrivalled c keys`: the command `c` is active in every context, and its keybinding
  `keys` collides with that of no other command. The lookups of the starts of `keys` then answer the
  same in every context: nothing is triggered before the last keystroke, and nothing goes on after
  it.

Each keystroke leads the machine one further along the keybinding (`Unrivalled.handle_waits`,
`Unrivalled.handle_fires`), and so does a run (`Unrivalled.run_strokes`). The main statement is
`run_of_conflicts_eq_singleton`.
-/

namespace KeyChord

namespace Registry

/-- The command is active in every context, and no other command has a keybinding that collides
with its keybinding. -/
structure Unrivalled (registry : Registry) (c : Command) (keys : Keybinding) : Prop where
  /-- The command is registered. -/
  mem : c ∈ registry.commands
  /-- This is its keybinding. -/
  effectiveKeys : c.effectiveKeys = some keys
  /-- It is active in every context. -/
  enabled : ∀ context, c.isEnabled context = true
  /-- No other command collides with the keybinding. -/
  alone : ∀ d ∈ registry.commands, d.CollidesWith keys → d = c

namespace Unrivalled

variable {registry : Registry} {c : Command} {keys : Keybinding} {sequence : List Keystroke}

/-- Only the command itself is bound to a start of the keybinding, and only to the whole. -/
theorem eq_of_boundTo (h : registry.Unrivalled c keys) {d : Command} (hd : d ∈ registry.commands)
    (hstart : sequence <+: keys.keystrokes) (hbound : d.BoundTo sequence) :
    d = c ∧ sequence = keys.keystrokes := by
  obtain ⟨kb, hkb, rfl⟩ := hbound
  obtain rfl := h.alone d hd ⟨kb, hkb, Or.inr (Or.inl hstart)⟩
  have hsame : kb = keys := Option.some.inj (hkb.symm.trans h.effectiveKeys)
  exact ⟨rfl, congrArg Keybinding.keystrokes hsame⟩

/-- The command goes on after every proper start of the keybinding, in every context. -/
theorem hasExtension_eq_true (h : registry.Unrivalled c keys) (hindexed : registry.Indexed)
    (hstart : sequence <+: keys.keystrokes) (hproper : sequence ≠ keys.keystrokes)
    (hne : sequence ≠ []) (context : Context) : registry.hasExtension sequence context = true :=
  (hindexed.hasExtension_iff_exists hne).mpr ⟨c, h.mem,
    Chord.Machine.goesOnAfter_of_isPrefix h.effectiveKeys hstart hproper, h.enabled context⟩

/-- No proper start of the keybinding triggers anything. -/
theorem firstExact?_eq_none (h : registry.Unrivalled c keys) (hindexed : registry.Indexed)
    (hstart : sequence <+: keys.keystrokes) (hproper : sequence ≠ keys.keystrokes)
    (context : Context) : registry.firstExact? sequence context = none :=
  hindexed.firstExact?_eq_none_iff.mpr fun _ hd _ hbound =>
    hproper (h.eq_of_boundTo hd hstart hbound).2

/-- The whole keybinding triggers the command, in every context. -/
theorem firstExact?_eq_some (h : registry.Unrivalled c keys) (hindexed : registry.Indexed)
    (context : Context) : registry.firstExact? keys.keystrokes context = some c := by
  refine hindexed.firstExact?_eq_some_iff.mpr
    ⟨h.mem, ⟨keys, h.effectiveKeys, rfl⟩, h.enabled context, fun d hbefore _ hbound => ?_⟩
  -- A command before it that is bound to the keybinding would be the command itself.
  obtain ⟨rfl, -⟩ := h.eq_of_boundTo (hbefore.subset (by simp)) (List.prefix_refl _) hbound
  have hnodup := hbefore.nodup hindexed.nodup_commands
  simp at hnodup

/-- Nothing goes on after the whole keybinding. -/
theorem hasExtension_eq_false (h : registry.Unrivalled c keys) (hindexed : registry.Indexed)
    (context : Context) : registry.hasExtension keys.keystrokes context = false := by
  rw [← Bool.not_eq_true, hindexed.hasExtension_iff_exists keys.nonempty]
  rintro ⟨d, hd, ⟨kb, hkb, hstart, hne⟩, -⟩
  obtain rfl := h.alone d hd ⟨kb, hkb, Or.inr (Or.inr hstart)⟩
  rw [Option.mem_def, h.effectiveKeys] at hkb
  cases hkb
  exact hne rfl

end Unrivalled

/-- A command that is active in every context has no rivals if it is the only conflict of its
keybinding. -/
theorem unrivalled_of_conflicts_eq_singleton {registry : Registry} (hindexed : registry.Indexed)
    {c : Command} {keys : Keybinding} (hkeys : c.effectiveKeys = some keys)
    (hwhen : c.effectiveWhen = none) (hconflicts : registry.conflicts keys = [c]) :
    registry.Unrivalled c keys := by
  have hmem : ∀ d, d ∈ registry.commands ∧ d.CollidesWith keys ↔ d = c := by
    intro d
    rw [← List.mem_singleton, ← hconflicts, hindexed.conflicts_eq_filter, List.mem_filter,
      decide_eq_true_iff]
  exact {
    mem := ((hmem c).mpr rfl).1
    effectiveKeys := hkeys
    enabled := fun context => by rw [Command.isEnabled, hwhen]; rfl
    alone := fun d hd hcollides => (hmem d).mp ⟨hd, hcollides⟩ }

/-! ## Typing the keybinding -/

namespace Unrivalled

open Chord (Machine Stroke)

variable {registry : Registry} {c : Command} {keys : Keybinding} {m : Machine} {k : Keystroke}
  {now : Nat}

/-- A keystroke that goes on with the keybinding keeps the chord pending. -/
theorem handle_waits (h : registry.Unrivalled c keys) (hindexed : registry.Indexed)
    (hsound : m.Sound) (hrecording : m.recording = false)
    (hstart : m.inTime now ++ [k] <+: keys.keystrokes)
    (hproper : m.inTime now ++ [k] ≠ keys.keystrokes) (context : Context) :
    m.handle registry context k now = (.pending, m.await (m.inTime now ++ [k]) now) :=
  hsound.handle_waits hrecording
    (h.hasExtension_eq_true hindexed hstart hproper (by simp) context)
    fun _ => h.firstExact?_eq_none hindexed hstart hproper context

/-- The last keystroke of the keybinding fires the command. -/
theorem handle_fires (h : registry.Unrivalled c keys) (hindexed : registry.Indexed)
    (hsound : m.Sound) (hrecording : m.recording = false)
    (hkeys : m.inTime now ++ [k] = keys.keystrokes) (context : Context) :
    m.handle registry context k now = (.fire c.id, m.cancel) := by
  refine hsound.handle_fires hrecording ?_ fun hnil => ?_
  · rw [hkeys]
    exact h.firstExact?_eq_some hindexed context
  · rw [hnil, List.nil_append] at hkeys
    rw [hkeys]
    exact h.hasExtension_eq_false hindexed context

end Unrivalled

end Registry

namespace Resolver

open Chord (Machine Stroke)

variable {r : Resolver} {c : Command} {keys : Keybinding}

/-- Typing the rest of the keybinding, each keystroke in time, is answered with the command at the
last keystroke and with nothing before. The machine is idle afterwards, and as it was but for the
number of timers that it has armed. -/
theorem run_strokes_of_unrivalled (h : r.registry.Unrivalled c keys)
    (hindexed : r.registry.Indexed) (hsound : r.machine.Sound)
    (hrecording : r.machine.recording = false) {typed : List Keystroke} {s : Stroke}
    {strokes : List Stroke} (htyped : r.machine.inTime s.now = typed)
    (hkeys : typed ++ (s :: strokes).map Stroke.key = keys.keystrokes)
    (htimes : (s :: strokes).IsChain fun a b => b.now < a.now + r.machine.timeout.ticks) :
    r.run ((s :: strokes).map .ofStroke) =
      (List.replicate strokes.length (.resolution ⟨true, none⟩) ++ [.resolution ⟨true, some c.id⟩],
        { r with
          machine := { r.machine.cancel with armed := r.machine.armed + strokes.length } }) := by
  -- The keystrokes that have been typed move over from the run to the pending chord.
  induction strokes generalizing r typed s with
  | nil =>
    subst htyped
    have hhandle := h.handle_fires hindexed hsound hrecording hkeys s.context
    have hstep := step_keystroke hhandle
    rw [List.map_singleton, Event.ofStroke, run_cons, hstep]
    rfl
  | cons s' strokes ih =>
    subst htyped
    obtain ⟨hnext, htimes⟩ := List.isChain_cons_cons.mp htimes
    rw [List.map_cons, List.append_cons] at hkeys
    have hstart : r.machine.inTime s.now ++ [s.key] <+: keys.keystrokes := ⟨_, hkeys⟩
    have hproper : r.machine.inTime s.now ++ [s.key] ≠ keys.keystrokes := by
      intro heq
      have hlength := congrArg List.length (hkeys.trans heq.symm)
      simp at hlength
    have hhandle := h.handle_waits hindexed hsound hrecording hstart hproper s.context
    have hstep := step_keystroke hhandle
    -- The next keystroke is in time for the chord that is pending now.
    have hrest := ih (r := { r with machine := r.machine.await _ s.now }) h hindexed
      (Chord.Machine.sound_await (by simp) hrecording) hrecording
      (Chord.Machine.inTime_of_lt rfl rfl hnext) hkeys htimes
    rw [List.map_cons, Event.ofStroke, run_cons, hstep, hrest]
    simp only [List.length_cons, List.replicate_succ, List.cons_append]
    -- The timer that the keystroke has armed is counted with those of the others.
    refine congrArg (Prod.mk _) ?_
    rw [Nat.add_comm strokes.length 1, ← Nat.add_assoc]
    rfl

/-- Let a command of a reachable resolver have a keybinding and no when-clause, and let no other
command conflict with the keybinding. If no chord is pending and nothing is recorded, typing the
keybinding is answered with the command at the last keystroke and with nothing but consumption
before, whatever the contexts and the policy, provided that each further keystroke arrives before
the deadline that the one before it has set. The resolver is idle again afterwards, and as it was
but for the number of timers that it has armed. -/
theorem run_of_conflicts_eq_singleton (hr : r.Reachable) (hidle : r.machine.isActive = false)
    (hrecording : r.machine.recording = false) (hkeys : c.effectiveKeys = some keys)
    (hwhen : c.effectiveWhen = none) (hconflicts : r.registry.conflicts keys = [c])
    {strokes : List Stroke} (hstrokes : strokes.map Stroke.key = keys.keystrokes)
    (htimes : strokes.IsChain fun a b => b.now < a.now + r.machine.timeout.ticks) :
    r.run (strokes.map .ofStroke) =
        (List.replicate (keys.length - 1) (.resolution ⟨true, none⟩) ++
          [.resolution ⟨true, some c.id⟩],
        { r with machine := { r.machine with armed := r.machine.armed + (keys.length - 1) } }) := by
  have hindexed := hr.registry.indexed
  have hpending : r.machine.pending = none :=
    Option.isNone_iff_eq_none.mp (Option.isSome_eq_false_iff.mp hidle)
  cases strokes with
  | nil => exact absurd hstrokes.symm keys.nonempty
  | cons s strokes =>
    have hlength : keys.length - 1 = strokes.length := by
      rw [Keybinding.length, ← hstrokes, List.length_map]
      rfl
    have hrun := run_strokes_of_unrivalled
      (Registry.unrivalled_of_conflicts_eq_singleton hindexed hkeys hwhen hconflicts) hindexed
      hr.sound hrecording (Chord.Machine.inTime_of_idle hpending) hstrokes htimes
    rwa [hr.sound.cancel_eq_self hpending, ← hlength] at hrun

/-- Two commands that do not get in each other's way. -/
def settingsAndSave : List Command :=
  [openSettings, .ofKeys "save" (.ofKeystroke ctrlS)]

/-- A chord of two keystrokes fires although its last keystroke is a keybinding too and arrives in
another context, one millisecond before the deadline. -/
theorem run_settingsAndSave :
    ((ofRegistry (.ofList settingsAndSave) default .reevaluate).run
        ([⟨ctrlK, .empty, 0⟩, ⟨ctrlS, Context.empty.set "modal" (.bool true), 749⟩].map
          .ofStroke)).1 =
      [.resolution ⟨true, none⟩, .resolution ⟨true, some "settings"⟩] := by
  have hreach := Registry.reachable_ofList settingsAndSave
  have hcommands : (Registry.ofList settingsAndSave).commands = settingsAndSave :=
    Registry.commands_ofList (by decide)
  have hconflicts : (Registry.ofList settingsAndSave).conflicts ⟨[ctrlK, ctrlS], by decide⟩ =
      [openSettings] := by
    rw [hreach.indexed.conflicts_eq_filter, hcommands]
    decide
  rw [run_of_conflicts_eq_singleton (c := openSettings) (.ofRegistry default .reevaluate hreach)
    rfl rfl rfl rfl hconflicts rfl (by decide)]
  rfl

/-! ## A resolver with one chord -/

theorem reachable_openSettings :
    (ofRegistry (.ofList [openSettings]) default default).Reachable :=
  .ofRegistry default default (Registry.reachable_ofList [openSettings])

theorem commands_openSettings : (Registry.ofList [openSettings]).commands = [openSettings] :=
  Registry.commands_ofList (by decide)

/-- The first keystroke of the chord makes it pending. -/
theorem step_openSettings :
    (ofRegistry (.ofList [openSettings]) default default).step (.keystroke ctrlK .empty 0) =
      (.resolution ⟨true, none⟩,
        ⟨.ofList [openSettings], (Machine.idle default default).await [ctrlK] 0⟩) := by
  have hindexed := reachable_openSettings.registry.indexed
  have hunrivalled : (Registry.ofList [openSettings]).Unrivalled openSettings
      ⟨[ctrlK, ctrlS], by decide⟩ := by
    refine Registry.unrivalled_of_conflicts_eq_singleton hindexed rfl rfl ?_
    rw [hindexed.conflicts_eq_filter]
    show (Registry.ofList [openSettings]).commands.filter _ = _
    rw [commands_openSettings]
    decide
  have hpending : (Machine.idle default default).handle (.ofList [openSettings]) .empty ctrlK 0 =
      (.pending, (Machine.idle default default).await [ctrlK] 0) :=
    hunrivalled.handle_waits hindexed (Chord.Machine.sound_idle _ _) rfl (by decide) (by decide) _
  exact step_keystroke (r := ofRegistry (.ofList [openSettings]) default default) hpending

end Resolver

end KeyChord
