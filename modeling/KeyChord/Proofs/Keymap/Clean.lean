import KeyChord.Proofs.Keymap.DeadBindings
import KeyChord.Proofs.Resolver.Unrivalled

/-!
# Keymaps without warnings

If the commands of a keymap come without when-clauses and there is nothing to warn about, every
keybinding works: the warnings cover all ways in which two such commands can get in each other's
way.

The module introduces:

* `c.Apart d`: neither of two commands is bound to a start of what the other is bound to.
* `keymap.Works c keys`: typing the keybinding `keys` in time fires the command `c`.

The main statement is `run_of_warnings_eq_nil`; `works_of_read` says the same of keymaps that have
been read.
-/

namespace KeyChord

/-- Neither command is bound to a start of what the other is bound to, let alone to the same. -/
def Command.Apart (c d : Command) : Prop :=
  ∀ kc ∈ c.effectiveKeys, ∀ kd ∈ d.effectiveKeys,
    ¬kc.keystrokes <+: kd.keystrokes ∧ ¬kd.keystrokes <+: kc.keystrokes

namespace Command

instance : Std.Symm Apart where
  symm _ _ h kd hkd kc hkc := (h kc hkc kd hkd).symm

theorem Apart.not_collidesWith {c d : Command} {keys : Keybinding} (h : c.Apart d)
    (hkeys : keys ∈ c.effectiveKeys) : ¬d.CollidesWith keys := by
  rintro ⟨kb, hkb, rfl | hstart | hstart⟩
  · exact (h kb hkeys kb hkb).1 (List.prefix_refl _)
  · exact (h keys hkeys kb hkb).2 hstart
  · exact (h keys hkeys kb hkb).1 hstart

end Command

namespace Keymap

open Chord (Stroke)

variable {keymap : Keymap}

/-- If the keybinding is typed, each further keystroke before the deadline that the one before it
has set, then the last keystroke is answered with the command and the others with nothing but
consumption, whatever the contexts, the timeout and the policy. -/
def Works (keymap : Keymap) (c : Command) (keys : Keybinding) : Prop :=
  ∀ (timeout : Timeout) (policy : BreakPolicy) (strokes : List Stroke),
    strokes.map Stroke.key = keys.keystrokes →
    (strokes.IsChain fun a b => b.now < a.now + timeout.ticks) →
    ((Resolver.ofRegistry (.ofList keymap.commands) timeout policy).run
        (strokes.map .ofStroke)).1 =
      List.replicate (keys.length - 1) (.resolution ⟨true, none⟩) ++
        [.resolution ⟨true, some c.id⟩]

/-- Commands without warnings have distinct names, and none of those that stand before them. -/
theorem nodup_of_listWarnings_eq_nil {seen : List String} {commands : List Command}
    (h : listWarnings seen commands = []) :
    (commands.map Command.id).Nodup ∧ ∀ c ∈ commands, c.id ∉ seen := by
  induction commands generalizing seen with
  | nil => simp
  | cons c commands ih =>
    -- The rest has been checked against the name of `c` as well.
    obtain ⟨hcommand, hrest⟩ := List.append_eq_nil_iff.mp h
    obtain ⟨hnodup, hnew⟩ := ih hrest
    have hc : c.id ∉ seen := by
      intro hseen
      have hmem := mem_commandWarnings_iff.mpr (Or.inl ⟨hseen, rfl⟩)
      simp [hcommand] at hmem
    refine ⟨?_, List.forall_mem_cons.mpr ⟨hc, fun d hd => ?_⟩⟩
    · rw [List.map_cons, List.nodup_cons, List.mem_map]
      exact ⟨fun ⟨d, hd, hid⟩ => hnew d hd (by simp [hid]), hnodup⟩
    · exact fun hseen => hnew d hd (List.mem_cons_of_mem _ hseen)

/-- A keymap without warnings names no command twice. -/
theorem nodup_ids_of_warnings_eq_nil (h : keymap.warnings = []) :
    (keymap.commands.map Command.id).Nodup := by
  rw [warnings, List.append_assoc, List.append_eq_nil_iff] at h
  exact (nodup_of_listWarnings_eq_nil h.1).1

section Clean

variable (hplain : ∀ c ∈ keymap.commands, c.isCustomized = false)
  (hwhen : ∀ c ∈ keymap.commands, c.defaultWhen = none) (hclean : keymap.warnings = [])

include hplain hwhen

/-- A bound command of such a keymap always wants its keystrokes. -/
theorem alwaysWants_of_mem {c : Command} {keys : Keybinding} (hc : c ∈ keymap.commands)
    (hkeys : keys ∈ c.effectiveKeys) : c.AlwaysWants keys := by
  rw [Option.mem_def, Command.effectiveKeys_of_not_isCustomized (hplain c hc)] at hkeys
  exact ⟨hwhen c hc, hkeys⟩

include hclean

/-- Without warnings, the keybindings of any two commands are apart. -/
theorem pairwise_apart : keymap.commands.Pairwise Command.Apart := by
  rw [List.pairwise_iff_forall_sublist]
  intro c d hsub kc hkc kd hkd
  have hwc := alwaysWants_of_mem hplain hwhen (hsub.subset (by simp)) hkc
  have hwd := alwaysWants_of_mem hplain hwhen (hsub.subset (by simp)) hkd
  have hnone : ∀ w, w ∉ keymap.warnings := by simp [hclean]
  -- If the keybindings were the same, the later command would be reported as shadowed.
  have hne : kc ≠ kd := by
    rintro rfl
    exact hnone _ (shadowed_mem_warnings_iff.mpr ⟨c, d, hsub, hwc, hwd, rfl, rfl⟩)
  have hkeystrokes : kc.keystrokes ≠ kd.keystrokes := mt Keybinding.ext hne
  -- If one went on after the other, the shorter would be reported for starting a chord.
  constructor
  · intro hstart
    have hextends := (kd.properlyExtends_iff kc.keystrokes).mpr ⟨hstart, hkeystrokes.symm⟩
    exact hnone _ (startsChord_mem_warnings_iff.mpr
      ⟨c, d, kd, Or.inl hsub, hwc, hwd, hextends, rfl, rfl⟩)
  · intro hstart
    have hextends := (kc.properlyExtends_iff kd.keystrokes).mpr ⟨hstart, hkeystrokes⟩
    exact hnone _ (startsChord_mem_warnings_iff.mpr
      ⟨d, c, kc, Or.inr hsub, hwd, hwc, hextends, rfl, rfl⟩)

/-- Without warnings, no bound command has a rival. -/
theorem unrivalled_of_mem {c : Command} {keys : Keybinding} (hc : c ∈ keymap.commands)
    (hkeys : keys ∈ c.effectiveKeys) :
    (Registry.ofList keymap.commands).Unrivalled c keys := by
  have hcommands := Registry.commands_ofList (nodup_ids_of_warnings_eq_nil hclean)
  have hwants := alwaysWants_of_mem hplain hwhen hc hkeys
  exact {
    mem := by rwa [hcommands]
    effectiveKeys := hkeys
    enabled := hwants.isEnabled (hplain c hc)
    alone := fun d hd hcollides => by
      rw [hcommands] at hd
      by_contra hne
      have hapart := (pairwise_apart hplain hwhen hclean).forall hc hd (Ne.symm hne)
      exact hapart.not_collidesWith hkeys hcollides }

/-- Without warnings, every keybinding works. -/
theorem works_of_mem {c : Command} {keys : Keybinding} (hc : c ∈ keymap.commands)
    (hkeys : keys ∈ c.effectiveKeys) : keymap.Works c keys := by
  intro timeout policy strokes hstrokes htimes
  have hunrivalled := unrivalled_of_mem hplain hwhen hclean hc hkeys
  have hindexed := (Registry.reachable_ofList keymap.commands).indexed
  cases strokes with
  | nil => exact absurd hstrokes.symm keys.nonempty
  | cons s strokes =>
    have hlength : keys.length = strokes.length + 1 := by
      rw [Keybinding.length, ← hstrokes, List.length_map, List.length_cons]
    have hrun := Resolver.run_strokes_of_unrivalled
      (r := .ofRegistry (.ofList keymap.commands) timeout policy) hunrivalled hindexed
      (Chord.Machine.sound_idle timeout policy) rfl (Chord.Machine.inTime_of_idle rfl) hstrokes
      htimes
    rw [hrun, hlength, Nat.add_sub_cancel]

/-- Let the commands of a keymap come without when-clauses and none be customized, as is so of every
keymap that has been read (`isCustomized_of_read`). If there are no warnings, then no command is
bound to a start of what another is bound to; and if the keybinding of a command is typed, each
further keystroke before the deadline that the one before it has set, then the last keystroke is
answered with the command and the others with nothing but consumption, whatever the contexts, the
timeout and the policy. -/
theorem run_of_warnings_eq_nil :
    keymap.commands.Pairwise Command.Apart ∧
      ∀ c ∈ keymap.commands, ∀ keys ∈ c.effectiveKeys, ∀ (timeout : Timeout)
        (policy : BreakPolicy) (strokes : List Stroke), strokes.map Stroke.key = keys.keystrokes →
        (strokes.IsChain fun a b => b.now < a.now + timeout.ticks) →
        ((Resolver.ofRegistry (.ofList keymap.commands) timeout policy).run
            (strokes.map .ofStroke)).1 =
          List.replicate (keys.length - 1) (.resolution ⟨true, none⟩) ++
            [.resolution ⟨true, some c.id⟩] :=
  ⟨pairwise_apart hplain hwhen hclean,
    fun _ hc _ hkeys => works_of_mem hplain hwhen hclean hc hkeys⟩

end Clean

/-- Of a keymap that a text gives no command is customized, so that without when-clauses and
warnings its keybindings work. -/
theorem works_of_read {text : String} {decoder : Source.Decoder}
    (hread : read text decoder = .ok keymap)
    (hwhen : ∀ c ∈ keymap.commands, c.defaultWhen = none) (hclean : keymap.warnings = []) :
    keymap.commands.Pairwise Command.Apart ∧
      ∀ c ∈ keymap.commands, ∀ keys ∈ c.effectiveKeys, keymap.Works c keys := by
  have hplain := isCustomized_of_read hread
  exact ⟨pairwise_apart hplain hwhen hclean,
    fun _ hc _ hkeys => works_of_mem hplain hwhen hclean hc hkeys⟩

/-- Two chords with the same first keystroke, and a keystroke by itself. -/
def workingBindings : Keymap where
  commands :=
    [.ofKeys "format" ⟨[⟨"k", { ctrl := true }⟩, ⟨"f", {}⟩], by decide⟩,
      .ofKeys "save" (.ofKeystroke ⟨"s", { ctrl := true }⟩),
      .ofKeys "settings" ⟨[⟨"k", { ctrl := true }⟩, ⟨"s", { ctrl := true }⟩], by decide⟩]

/-- There is nothing to warn about, and the last keystroke tells the chords apart. -/
theorem run_workingBindings :
    workingBindings.warnings = [] ∧
      ((Resolver.ofRegistry (.ofList workingBindings.commands) default .reevaluate).run
          ([⟨⟨"k", { ctrl := true }⟩, .empty, 0⟩, ⟨⟨"s", { ctrl := true }⟩, .empty, 700⟩].map
            .ofStroke)).1 =
        [.resolution ⟨true, none⟩, .resolution ⟨true, some "settings"⟩] := by
  have hclean : workingBindings.warnings = [] := by decide
  obtain ⟨-, hruns⟩ := run_of_warnings_eq_nil (by decide) (by decide) hclean
  exact ⟨hclean, hruns workingBindings.commands[2] (by simp [workingBindings]) _ rfl default
    .reevaluate _ rfl (by decide)⟩

end Keymap

end KeyChord
