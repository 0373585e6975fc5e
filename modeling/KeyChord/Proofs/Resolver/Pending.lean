import KeyChord.Proofs.Chord.Timers
import KeyChord.Proofs.Resolver.Unrivalled

/-!
# What a pending chord waits for

A chord is made pending because the keybinding of some command goes on after it. The registry may
change afterwards, but whoever changes it gives the chord up, so that the command is still there
whenever a chord is pending.

The module introduces:

* `registry.longest?`: the length of the longest effective keybinding.
* `Resolver.Awaited r`: the registry of `r` has a command that goes on after the pending chord.

Every event preserves `Awaited` (`awaited_step`), so that it holds of all reachable resolvers
(`Reachable.awaited`). The main statement is `keystrokes_lt_longest`.
-/

namespace KeyChord

/-- The keybinding of a command that goes on after a sequence is longer than the sequence. -/
theorem Command.GoesOnAfter.exists_length_lt {c : Command} {sequence : List Keystroke}
    (h : c.GoesOnAfter sequence) : ∃ keys ∈ c.effectiveKeys, sequence.length < keys.length := by
  obtain ⟨keys, hkeys, hstart, hproper⟩ := h
  refine ⟨keys, hkeys, Nat.lt_of_le_of_ne hstart.length_le fun hlength => hproper ?_⟩
  exact (hstart.eq_of_length hlength).symm

namespace Registry

/-- The lengths of the effective keybindings. -/
def keyLengths (r : Registry) : List Nat :=
  r.commands.filterMap fun c => c.effectiveKeys.map Keybinding.length

/-- The length of the longest effective keybinding, if any command has a keybinding. -/
def longest? (r : Registry) : Option Nat :=
  r.keyLengths.max?

/-- No effective keybinding is longer than the longest. -/
theorem length_le_longest? {r : Registry} {longest : Nat} (hlongest : longest ∈ r.longest?)
    {c : Command} (hc : c ∈ r.commands) {keys : Keybinding} (hkeys : keys ∈ c.effectiveKeys) :
    keys.length ≤ longest := by
  have hmem : keys.length ∈ r.keyLengths :=
    List.mem_filterMap.mpr ⟨c, hc, Option.map_eq_some_iff.mpr ⟨keys, hkeys, rfl⟩⟩
  exact (List.max?_eq_some_iff.mp hlongest).2 _ hmem

/-- The longest effective keybinding has a first keystroke. -/
theorem longest?_pos {r : Registry} {longest : Nat} (hlongest : longest ∈ r.longest?) :
    0 < longest := by
  obtain ⟨c, -, hlength⟩ := List.mem_filterMap.mp (List.max?_eq_some_iff.mp hlongest).1
  obtain ⟨keys, -, rfl⟩ := Option.map_eq_some_iff.mp hlength
  exact List.length_pos_iff.mpr keys.nonempty

end Registry

namespace Resolver

/-- Some command of the registry, whether it is active or not, goes on after the pending chord. -/
def Awaited (r : Resolver) : Prop :=
  ∀ chord ∈ r.machine.pending, ∃ c ∈ r.registry.commands, c.GoesOnAfter chord.keystrokes

variable {r : Resolver}

/-- An event leaves the registry alone, or no chord is pending after it. -/
theorem registry_step_eq_or (r : Resolver) (event : Event) :
    (r.step event).2.registry = r.registry ∨ (r.step event).2.machine.pending = none := by
  cases event with
  | edit edits => exact Or.inr rfl
  | _ => exact Or.inl rfl

/-- Every event leaves a chord that a command goes on after, or none. -/
theorem awaited_step (hsound : r.machine.Sound) (h : r.Awaited) (event : Event) :
    (r.step event).2.Awaited := by
  intro chord hchord
  cases hkey : (r.entry event).keypress? with
  | some p =>
    -- A keystroke is answered as pending only if a command goes on after what has been typed.
    obtain ⟨rfl, -⟩ := exists_of_keypress?_entry hkey
    have hactive : (r.machine.handle r.registry p.context p.key p.now).2.isActive = true :=
      Option.isSome_iff_exists.mpr ⟨chord, hchord⟩
    obtain ⟨c, hc, -, hgoes⟩ := Chord.Machine.exists_goesOnAfter_of_pending hsound
      ((Chord.Machine.handle_eq_pending_iff hsound r.registry p.context p.key p.now).mpr hactive)
    refine ⟨c, hc, ?_⟩
    have hpending : (r.machine.handle r.registry p.context p.key p.now).2.pending = some chord :=
      hchord
    rwa [Chord.Machine.keystrokes, hpending] at hgoes
  | none =>
    -- Any other event leaves the chord and the registry alone, or there is no chord after it.
    rcases machine_step event hkey with ⟨-, hpending, -⟩ | ⟨-, hnone⟩
    · rcases registry_step_eq_or r event with hregistry | hnone
      · rw [hpending] at hchord
        rw [hregistry]
        exact h chord hchord
      · rw [hnone] at hchord
        cases hchord
    · rw [hnone] at hchord
      cases hchord

/-- In a reachable resolver, some command goes on after the pending chord. -/
theorem Reachable.awaited (h : r.Reachable) : r.Awaited := by
  induction h with
  | ofRegistry timeout policy =>
    intro chord hchord
    cases hchord
  | step event h ih => exact awaited_step h.sound ih event

/-- Whenever a chord is pending in a reachable resolver, a command of its registry has an effective
keybinding that starts with the chord and goes on. There are therefore always fewer pending
keystrokes than the longest effective keybinding has, and no chord is ever pending while all
effective keybindings are single keystrokes. -/
theorem keystrokes_lt_longest (h : r.Reachable) :
    (∀ chord ∈ r.machine.pending, ∃ c ∈ r.registry.commands, ∃ keys ∈ c.effectiveKeys,
      chord.keystrokes <+: keys.keystrokes ∧ keys.keystrokes ≠ chord.keystrokes) ∧
      (∀ longest ∈ r.registry.longest?, r.machine.keystrokes.length < longest) ∧
      ((∀ c ∈ r.registry.commands, ∀ keys ∈ c.effectiveKeys, keys.isChord = false) →
        r.machine.isActive = false) := by
  have hawaited := h.awaited
  refine ⟨hawaited, fun longest hlongest => ?_, fun hsingle => ?_⟩
  · rw [Chord.Machine.keystrokes]
    cases hpending : r.machine.pending with
    | none => exact Registry.longest?_pos hlongest
    | some chord =>
      obtain ⟨c, hc, hgoes⟩ := hawaited chord hpending
      obtain ⟨keys, hkeys, hlt⟩ := hgoes.exists_length_lt
      exact Nat.lt_of_lt_of_le hlt (Registry.length_le_longest? hlongest hc hkeys)
  · rw [Chord.Machine.isActive]
    cases hpending : r.machine.pending with
    | none => rfl
    | some chord =>
      obtain ⟨c, hc, hgoes⟩ := hawaited chord hpending
      obtain ⟨keys, hkeys, hlt⟩ := hgoes.exists_length_lt
      -- A pending chord has a keystroke, so that the keybinding has two or more.
      have hpos := List.length_pos_iff.mpr (h.sound.nonempty chord hpending)
      have hchord : keys.isChord = true := decide_eq_true (Nat.lt_of_le_of_lt hpos hlt)
      rw [hsingle c hc keys hkeys] at hchord
      cases hchord

/-- After the first of two keystrokes one is pending, and the longest keybinding has two. -/
theorem keystrokes_lt_longest_openSettings :
    ((ofRegistry (.ofList [openSettings]) default default).run
        [.keystroke ctrlK .empty 0]).2.machine.keystrokes = [ctrlK] ∧
      ((ofRegistry (.ofList [openSettings]) default default).run
        [.keystroke ctrlK .empty 0]).2.registry.longest? = some 2 ∧ [ctrlK].length < 2 := by
  have hlongest : (Registry.ofList [openSettings]).longest? = some 2 := by
    rw [Registry.longest?, Registry.keyLengths, commands_openSettings]
    rfl
  have hkeystrokes : ((ofRegistry (.ofList [openSettings]) default default).run
      [.keystroke ctrlK .empty 0]).2.machine.keystrokes = [ctrlK] := by
    rw [run_cons, step_openSettings]
    rfl
  have hlt := (keystrokes_lt_longest
    (reachable_openSettings.run [.keystroke ctrlK .empty 0])).2.1 2 hlongest
  rw [hkeystrokes] at hlt
  exact ⟨hkeystrokes, hlongest, hlt⟩

end Resolver

end KeyChord
