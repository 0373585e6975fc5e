import KeyChord.Keymap.Basic
import KeyChord.Proofs.Chord.Firing
import KeyChord.Proofs.Keymap.Reading
import KeyChord.Proofs.Keymap.Warnings
import KeyChord.Proofs.Resolver.Strokes

/-!
# Warnings about dead bindings

Some warnings say of a command that it never fires. Here they are compared with what a resolver over
the commands of the keymap does.

The module introduces:

* `keymap.NeverFires id`: no run of keystrokes is answered with the command `id`, in whatever
  contexts, at whatever times and for every timeout and policy.
* `keymap.Overtaken id keys`: in every context, a command takes the keystrokes `keys` before the
  command `id` gets them.

A command that is shadowed or has an invalid when-clause never fires. A command that starts the
chord of another never fires if it is bound to a single keystroke; after the first keystroke of a
chord, however, the shorter keybinding wins, so that the warning is wrong about chords that are not
overtaken (`neverFires_of_warning`, and `neverFires_of_read` for keymaps that have been read).
-/

namespace KeyChord

/-! ## Commands as keymaps describe them -/

namespace Command

variable {c : Command} {keys : Keybinding}

/-- A command that always wants its keystrokes is active in every context. -/
theorem AlwaysWants.isEnabled (h : c.AlwaysWants keys) (hplain : c.isCustomized = false)
    (context : Context) : c.isEnabled context = true := by
  rw [Command.isEnabled, effectiveWhen_of_not_isCustomized hplain, h.unconditional]
  rfl

/-- A command that always wants its keystrokes is bound to them. -/
theorem AlwaysWants.effectiveKeys (h : c.AlwaysWants keys) (hplain : c.isCustomized = false) :
    c.effectiveKeys = some keys := by
  rw [effectiveKeys_of_not_isCustomized hplain, h.keys_eq]

/-- A command whose when-clause does not parse is active in no context. -/
theorem isEnabled_of_invalid {clause : When.Clause} {error : When.ParseError}
    (hclause : clause ∈ c.defaultWhen) (hparse : When.parse clause.source = .error error)
    (hplain : c.isCustomized = false) (context : Context) : c.isEnabled context = false := by
  rw [isEnabled, effectiveWhen_of_not_isCustomized hplain, hclause, Option.all_some,
    When.Clause.holds, clause.expr_eq, hparse]
  rfl

end Command

namespace Keymap

/-! ## Commands that never fire -/

/-- No run of keystrokes is answered with the command, in whatever contexts and at whatever times,
for every timeout and policy. -/
def NeverFires (keymap : Keymap) (id : String) : Prop :=
  ∀ (timeout : Timeout) (policy : BreakPolicy) (strokes : List Chord.Stroke),
    ¬(Resolver.ofRegistry (.ofList keymap.commands) timeout policy).Fires strokes id

/-- In every context, the command does not get its keystrokes: either the first two or more of them
trigger a command, whatever the context; or all of them trigger a command listed earlier. -/
def Overtaken (keymap : Keymap) (id : String) (keys : Keybinding) : Prop :=
  (∃ sequence, sequence <+: keys.keystrokes ∧ sequence ≠ keys.keystrokes ∧ 2 ≤ sequence.length ∧
    ∀ context, ∃ d ∈ keymap.commands, d.isEnabled context = true ∧ d.BoundTo sequence) ∨
  ∀ context, ∃ c d, c.id = id ∧ [d, c].Sublist keymap.commands ∧
    d.isEnabled context = true ∧ d.BoundTo keys.keystrokes

variable {keymap : Keymap} {c d : Command} {keys : Keybinding}

/-- A command never fires exactly if it cannot. -/
theorem neverFires_iff (hids : (keymap.commands.map Command.id).Nodup)
    (hc : c ∈ keymap.commands) :
    keymap.NeverFires c.id ↔
      ¬Chord.Machine.CanFire (.ofList keymap.commands) Set.univ c := by
  have hindexed := (Registry.reachable_ofList keymap.commands).indexed
  have hmem : c ∈ (Registry.ofList keymap.commands).commands := by
    rw [Registry.commands_ofList hids]
    exact hc
  constructor
  · intro hnever hcan
    obtain ⟨strokes, -, hrun⟩ := Chord.Machine.exists_run_of_canFire hcan
    refine hnever default default strokes ?_
    rw [Resolver.fires_iff]
    exact hrun default default
  · intro hcannot timeout policy strokes hfires
    rw [Resolver.fires_iff] at hfires
    refine hcannot (Chord.Machine.canFire_of_fires hindexed hmem (fun event hevent => ?_) hfires)
    obtain ⟨s, -, rfl⟩ := List.mem_map.mp hevent
    exact ⟨rfl, Set.mem_univ _⟩

/-- A command that is active in no context never fires. -/
theorem neverFires_of_disabled (hids : (keymap.commands.map Command.id).Nodup)
    (hc : c ∈ keymap.commands) (hdisabled : ∀ context, c.isEnabled context = false) :
    keymap.NeverFires c.id := by
  rw [neverFires_iff hids hc]
  rintro ⟨typed, k, -, context, -, hexact, -⟩
  have hindexed := (Registry.reachable_ofList keymap.commands).indexed
  obtain ⟨-, -, henabled, -⟩ := hindexed.firstExact?_eq_some_iff.mp hexact
  rw [hdisabled context] at henabled
  cases henabled

/-- A command never fires if one listed before it is bound to the same keystrokes and active in
every context. -/
theorem neverFires_of_shadowed (hids : (keymap.commands.map Command.id).Nodup)
    (hsub : [d, c].Sublist keymap.commands) (hckeys : c.effectiveKeys = some keys)
    (hdkeys : d.effectiveKeys = some keys) (henabled : ∀ context, d.isEnabled context = true) :
    keymap.NeverFires c.id := by
  rw [neverFires_iff hids (hsub.subset (by simp))]
  have hindexed := (Registry.reachable_ofList keymap.commands).indexed
  rw [Chord.Machine.canFire_iff hindexed hckeys]
  rintro ⟨-, context, -, hexact, -⟩
  obtain ⟨-, -, -, hfirst⟩ := hindexed.firstExact?_eq_some_iff.mp hexact
  refine hfirst d ?_ (henabled context) ⟨keys, hdkeys, rfl⟩
  rw [Registry.Before, Registry.commands_ofList hids]
  exact hsub

/-- A command that is active in every context and starts the chord of another such command never
fires exactly if it is bound to a single keystroke or overtaken. -/
theorem neverFires_iff_of_startsChord (hids : (keymap.commands.map Command.id).Nodup)
    (hc : c ∈ keymap.commands) (hd : d ∈ keymap.commands) (hkeys : c.effectiveKeys = some keys)
    (hcenabled : ∀ context, c.isEnabled context = true)
    (hdenabled : ∀ context, d.isEnabled context = true)
    (hgoes : d.GoesOnAfter keys.keystrokes) :
    keymap.NeverFires c.id ↔ keys.length = 1 ∨ keymap.Overtaken c.id keys := by
  have hindexed := (Registry.reachable_ofList keymap.commands).indexed
  have hcommands := Registry.commands_ofList hids
  have hmem : c ∈ (Registry.ofList keymap.commands).commands := by
    rw [hcommands]
    exact hc
  rw [neverFires_iff hids hc, Chord.Machine.canFire_iff_of_isEnabled hindexed hmem
    ⟨.empty, Set.mem_univ _⟩ (fun context _ => hcenabled context) hkeys]
  simp only [Registry.Before, hcommands, Set.mem_univ, true_and]
  constructor
  · -- A chord that is not overtaken can fire.
    intro hcannot
    refine or_iff_not_imp_left.mpr fun hlength => by_contra fun hovertaken => hcannot ?_
    obtain ⟨hstarts, hearlier⟩ := not_or.mp hovertaken
    refine ⟨fun sequence hstart hproper htwo => by_contra fun htaken => hstarts ?_, ?_⟩
    · refine ⟨sequence, hstart, hproper, htwo, fun context => by_contra fun hfree => htaken ?_⟩
      exact ⟨context, fun d hd hde hdb => hfree ⟨d, hd, hde, hdb⟩⟩
    · obtain ⟨context, hfree⟩ := not_forall.mp hearlier
      exact ⟨context, fun d hsub hde hdb => hfree ⟨c, d, rfl, hsub, hde, hdb⟩,
        fun h => absurd h hlength⟩
  · rintro (hlength | ⟨sequence, hstart, hproper, htwo, htaken⟩ | hearlier)
      ⟨hstarts, context, hfirst, hsingle⟩
    · -- The chord takes the keystroke.
      exact hsingle hlength d hd (hdenabled context) hgoes
    · obtain ⟨context, hfree⟩ := hstarts sequence hstart hproper htwo
      obtain ⟨d, hd, hde, hdb⟩ := htaken context
      exact hfree d hd hde hdb
    · obtain ⟨c', d, hid, hsub, hde, hdb⟩ := hearlier context
      obtain rfl : c' = c := List.inj_on_of_nodup_map hids (hsub.subset (by simp)) hc hid
      exact hfirst d hsub hde hdb

/-! ## What the warnings promise -/

section Warned

variable {id : String}
  (hids : (keymap.commands.map Command.id).Nodup)
  (hplain : ∀ c ∈ keymap.commands, c.isCustomized = false)

include hids hplain

/-- A command that is reported as shadowed never fires. -/
theorem neverFires_of_shadowed_mem {shadowedBy : String}
    (hw : .shadowed id keys shadowedBy ∈ keymap.warnings) : keymap.NeverFires id := by
  obtain ⟨first, second, hsub, hfirst, hsecond, -, rfl⟩ := shadowed_mem_warnings_iff.mp hw
  have hpf := hplain first (hsub.subset (by simp))
  have hps := hplain second (hsub.subset (by simp))
  exact neverFires_of_shadowed hids hsub (hsecond.effectiveKeys hps) (hfirst.effectiveKeys hpf)
    (hfirst.isEnabled hpf)

/-- A command that is reported for its when-clause never fires. -/
theorem neverFires_of_invalidClause_mem {source : String} {error : When.ParseError}
    (hw : .invalidClause id source error ∈ keymap.warnings) : keymap.NeverFires id := by
  obtain ⟨c, hc, rfl, clause, hclause, rfl, hparse⟩ := invalidClause_mem_warnings_iff.mp hw
  exact neverFires_of_disabled hids hc
    (Command.isEnabled_of_invalid hclause hparse (hplain c hc))

/-- A command that is reported for starting the chord of another never fires exactly if it is bound
to a single keystroke or overtaken. -/
theorem neverFires_iff_of_startsChord_mem {chord : String}
    (hw : .startsChord id keys chord ∈ keymap.warnings) :
    keymap.NeverFires id ↔ keys.length = 1 ∨ keymap.Overtaken id keys := by
  obtain ⟨c, d, kb, hsub, hwc, hwd, hextends, rfl, -⟩ := startsChord_mem_warnings_iff.mp hw
  have hc : c ∈ keymap.commands := hsub.elim (·.subset (by simp)) (·.subset (by simp))
  have hd : d ∈ keymap.commands := hsub.elim (·.subset (by simp)) (·.subset (by simp))
  have hgoes : d.GoesOnAfter keys.keystrokes :=
    ⟨kb, hwd.effectiveKeys (hplain d hd), (kb.properlyExtends_iff _).mp hextends⟩
  exact neverFires_iff_of_startsChord hids hc hd (hwc.effectiveKeys (hplain c hc))
    (hwc.isEnabled (hplain c hc)) (hwd.isEnabled (hplain d hd)) hgoes

end Warned

/-- Let the names of a keymap be distinct and no command be customized, as is so of every keymap
that has been read (`isCustomized_of_read`). A command that is reported as shadowed never fires, and
neither does one that is reported for its when-clause. A command that is reported for starting the
chord of another never fires exactly if it is bound to a single keystroke or overtaken. -/
theorem neverFires_of_warning (hids : (keymap.commands.map Command.id).Nodup)
    (hplain : ∀ c ∈ keymap.commands, c.isCustomized = false) :
    (∀ id keys shadowedBy, .shadowed id keys shadowedBy ∈ keymap.warnings →
      keymap.NeverFires id) ∧
    (∀ id source error, .invalidClause id source error ∈ keymap.warnings →
      keymap.NeverFires id) ∧
    ∀ id keys chord, .startsChord id keys chord ∈ keymap.warnings →
      (keymap.NeverFires id ↔ keys.length = 1 ∨ keymap.Overtaken id keys) :=
  ⟨fun _ _ _ hw => neverFires_of_shadowed_mem hids hplain hw,
    fun _ _ _ hw => neverFires_of_invalidClause_mem hids hplain hw,
    fun _ _ _ hw => neverFires_iff_of_startsChord_mem hids hplain hw⟩

/-- In a keymap that a text gives no command is customized, so that its warnings are right as far as
those of any other. -/
theorem neverFires_of_read {text : String} {decoder : Source.Decoder}
    (hread : read text decoder = .ok keymap) (hids : (keymap.commands.map Command.id).Nodup) :
    (∀ id keys shadowedBy, .shadowed id keys shadowedBy ∈ keymap.warnings →
      keymap.NeverFires id) ∧
    (∀ id source error, .invalidClause id source error ∈ keymap.warnings →
      keymap.NeverFires id) ∧
    ∀ id keys chord, .startsChord id keys chord ∈ keymap.warnings →
      (keymap.NeverFires id ↔ keys.length = 1 ∨ keymap.Overtaken id keys) := by
  have hplain := isCustomized_of_read hread
  exact ⟨fun _ _ _ hw => neverFires_of_shadowed_mem hids hplain hw,
    fun _ _ _ hw => neverFires_of_invalidClause_mem hids hplain hw,
    fun _ _ _ hw => neverFires_iff_of_startsChord_mem hids hplain hw⟩

/-- Two commands that are dead, each with the one that takes its keystrokes. -/
def deadBindings : Keymap where
  commands :=
    [.ofKeys "first" (.ofKeystroke ⟨"s", { ctrl := true }⟩),
      .ofKeys "second" (.ofKeystroke ⟨"s", { ctrl := true }⟩),
      .ofKeys "clear" (.ofKeystroke ⟨"k", { ctrl := true }⟩),
      .ofKeys "zen" ⟨[⟨"k", { ctrl := true }⟩, ⟨"z", {}⟩], by decide⟩]

/-- Of the reported commands of single keystrokes, none ever fires. -/
theorem neverFires_deadBindings :
    deadBindings.warnings =
        [.shadowed "second" (.ofKeystroke ⟨"s", { ctrl := true }⟩) "first",
          .startsChord "clear" (.ofKeystroke ⟨"k", { ctrl := true }⟩) "zen"] ∧
      deadBindings.NeverFires "second" ∧ deadBindings.NeverFires "clear" := by
  have hids : (deadBindings.commands.map Command.id).Nodup := by decide
  have hwarnings : deadBindings.warnings =
      [.shadowed "second" (.ofKeystroke ⟨"s", { ctrl := true }⟩) "first",
        .startsChord "clear" (.ofKeystroke ⟨"k", { ctrl := true }⟩) "zen"] := by decide
  obtain ⟨hshadowed, -, hchord⟩ := neverFires_of_warning hids (by decide)
  rw [hwarnings] at hshadowed hchord
  exact ⟨hwarnings, hshadowed _ _ _ List.mem_cons_self,
    (hchord _ _ _ (List.mem_cons_of_mem _ List.mem_cons_self)).mpr (Or.inl rfl)⟩

/-- Two chords, of which one goes on after the other. -/
def nestedChords : Keymap where
  commands :=
    [.ofKeys "copy" ⟨[⟨"k", { ctrl := true }⟩, ⟨"c", { ctrl := true }⟩], by decide⟩,
      .ofKeys "copyLine" ⟨[⟨"k", { ctrl := true }⟩, ⟨"c", { ctrl := true }⟩,
        ⟨"l", { ctrl := true }⟩], by decide⟩]

/-- The shorter of two chords is reported as a command that never fires, but it does fire. -/
theorem fires_of_nestedChords :
    (nestedChords.commands.map Command.id).Nodup ∧ nestedChords.overrides = [] ∧
      (∃ keys, .startsChord "copy" keys "copyLine" ∈ nestedChords.warnings) ∧
      ¬nestedChords.NeverFires "copy" := by
  have hids : (nestedChords.commands.map Command.id).Nodup := by decide
  have hiff := neverFires_iff_of_startsChord (c := nestedChords.commands[0])
    (d := nestedChords.commands[1]) hids (by decide) (by decide) rfl (fun _ => rfl)
    (fun _ => rfl) (by decide)
  refine ⟨hids, rfl, ⟨⟨[⟨"k", { ctrl := true }⟩, ⟨"c", { ctrl := true }⟩], by decide⟩, by decide⟩,
    fun hnever => ?_⟩
  rcases hiff.mp hnever with hlength | ⟨sequence, hstart, hproper, htwo, -⟩ | hearlier
  · cases hlength
  · exact hproper (hstart.eq_of_length_le htwo)
  · obtain ⟨c, d, hid, hsub, -⟩ := hearlier .empty
    have hlater : ∀ c ∈ nestedChords.commands, ∀ d ∈ nestedChords.commands,
        [d, c].Sublist nestedChords.commands → c.id ≠ "copy" := by decide
    exact hlater c (hsub.subset (by simp)) d (hsub.subset (by simp)) hsub hid

end Keymap

end KeyChord
