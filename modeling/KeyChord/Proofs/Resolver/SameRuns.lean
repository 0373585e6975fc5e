import KeyChord.Proofs.Resolver.Unrivalled
import KeyChord.Proofs.When.Parsing

/-!
# Registries with the same runs

The chord machine asks a registry for two things: which command a sequence triggers, and whether
one goes on after it. Registries that give the same answers cannot be told apart by any run, however
their commands are numbered and indexed.

The module introduces:

* `Resolver.trace`: what some events answer in turn, each with the machine after it.
* `r.LooksLike context r' context'`: `r` gives in `context` the answers that `r'` gives in
  `context'`. Every keystroke then comes to the same (`LooksLike.handle_eq`), and so does every run
  (`trace_eq_of_looksLike`).
* `Registry.SameActive context r r'`: the same commands can be triggered in the context, and those
  of one keybinding are in the same order. The two registries then look alike
  (`SameActive.looksLike`).
* `c.Hidden context`: the command has no keybinding, or its when-clause does not hold.

The main statements are `trace_eq_of_same_order`, by which the order of registration matters only
between commands of one keybinding, and `trace_eq_of_hidden`, by which a command that is
hidden at every keystroke might as well not be registered.
-/

namespace KeyChord

/-- The command has no keybinding, or a when-clause that writes nothing that holds. -/
def Command.Hidden (c : Command) (context : Context) : Prop :=
  c.effectiveKeys = none ∨
    ∃ clause ∈ c.effectiveWhen, ∀ e ∈ clause.expr, e.eval context = false

/-- A hidden command is none that has a keybinding and is active. -/
theorem Command.Hidden.ne {c d : Command} {context : Context} {keys : Keybinding}
    (h : c.Hidden context) (hkeys : d.effectiveKeys = some keys)
    (henabled : d.isEnabled context = true) : d ≠ c := by
  rintro rfl
  rcases h with hnone | ⟨clause, hclause, hfalse⟩
  · simp [hnone] at hkeys
  · rw [Option.mem_def] at hclause
    simp only [isEnabled, hclause, Option.all_some, When.Clause.holds,
      Option.any_eq_true] at henabled
    obtain ⟨e, he, heval⟩ := henabled
    simp [hfalse e he] at heval

namespace Registry

variable {r r' : Registry} {context context' : Context}

/-! ## Lookups that cannot be told apart -/

/-- The lookups of the chord machine in `r` and `context` come to the same as those in `r'` and
`context'`. -/
structure LooksLike (r : Registry) (context : Context) (r' : Registry) (context' : Context) :
    Prop where
  /-- Every sequence triggers the same command. -/
  firstExact? : ∀ sequence, r.firstExact? sequence context = r'.firstExact? sequence context'
  /-- A sequence has an extension in both or in none. -/
  hasExtension : ∀ sequence, sequence ≠ [] →
    r.hasExtension sequence context = r'.hasExtension sequence context'

/-- The same commands can be triggered in the context, and those of one keybinding are in the same
order. -/
structure SameActive (context : Context) (r r' : Registry) : Prop where
  /-- An active command that has a keybinding is registered in both or in none. -/
  mem_iff : ∀ c keys, c.effectiveKeys = some keys → c.isEnabled context = true →
    (c ∈ r.commands ↔ c ∈ r'.commands)
  /-- Of two that have the same keybinding, the same one is the earlier in both. -/
  before_iff : ∀ c d keys, c.effectiveKeys = some keys → d.effectiveKeys = some keys →
    c.isEnabled context = true → d.isEnabled context = true → (r.Before c d ↔ r'.Before c d)

namespace SameActive

theorem symm (h : SameActive context r r') : SameActive context r' r where
  mem_iff c keys hkeys henabled := (h.mem_iff c keys hkeys henabled).symm
  before_iff c d keys hc hd hce hde := (h.before_iff c d keys hc hd hce hde).symm

/-- What a sequence triggers in one of the registries it triggers in the other. -/
theorem firstExact?_eq_some (h : SameActive context r r') (hr : r.Indexed) (hr' : r'.Indexed)
    {sequence : List Keystroke} {c : Command} (hexact : r.firstExact? sequence context = some c) :
    r'.firstExact? sequence context = some c := by
  obtain ⟨hc, ⟨keys, hkeys, rfl⟩, henabled, hfirst⟩ := hr.firstExact?_eq_some_iff.mp hexact
  apply hr'.firstExact?_eq_some_iff.mpr
  refine ⟨(h.mem_iff c keys hkeys henabled).mp hc, ⟨keys, hkeys, rfl⟩, henabled, ?_⟩
  -- A command that is earlier in the second registry and has the keybinding is so in the first.
  intro d hbefore hde hbound
  have hd := Command.boundTo_keystrokes_iff.mp hbound
  exact hfirst d ((h.before_iff d c keys hd hkeys hde henabled).mpr hbefore) hde hbound

theorem looksLike (h : SameActive context r r') (hr : r.Indexed) (hr' : r'.Indexed) :
    r.LooksLike context r' context where
  firstExact? sequence := by
    ext c
    exact ⟨h.firstExact?_eq_some hr hr', h.symm.firstExact?_eq_some hr' hr⟩
  hasExtension sequence hne := by
    rw [Bool.eq_iff_iff, hr.hasExtension_iff_exists hne, hr'.hasExtension_iff_exists hne]
    apply exists_congr
    intro c
    -- Only commands that have a keybinding go on after anything.
    apply and_congr_left
    rintro ⟨⟨keys, hkeys, -⟩, henabled⟩
    exact h.mem_iff c keys hkeys henabled

end SameActive

/-- In a context in which a command is hidden, all others are as they are without it. -/
theorem sameActive_of_erase (hr : r.Indexed) {c : Command} (hhidden : c.Hidden context)
    (hcommands : r'.commands = r.commands.erase c) : SameActive context r r' where
  mem_iff d keys hkeys henabled := by
    rw [hcommands, hr.nodup_commands.mem_erase_iff]
    exact (and_iff_right (hhidden.ne hkeys henabled)).symm
  before_iff d e keys hd he hde hee := by
    rw [Before, Before, hcommands]
    constructor
    · intro hbefore
      have hne : c ∉ [d, e] := by
        simp [(hhidden.ne hd hde).symm, (hhidden.ne he hee).symm]
      have herase := hbefore.erase c
      rwa [List.erase_of_not_mem hne] at herase
    · intro hbefore
      exact hbefore.trans List.erase_sublist

/-- The machine cannot tell registries and contexts apart that look alike. -/
theorem LooksLike.handle_eq (h : r.LooksLike context r' context') (m : Chord.Machine)
    (k : Keystroke) (now : Nat) : m.handle r context k now = m.handle r' context' k now := by
  have hstart : ∀ m : Chord.Machine, m.start r context k now = m.start r' context' k now := by
    intro m
    rw [Chord.Machine.start, Chord.Machine.start, h.hasExtension _ (by simp), h.firstExact?]
  have hresume : ∀ (m : Chord.Machine) typed,
      m.resume typed r context k now = m.resume typed r' context' k now := by
    intro m typed
    simp only [Chord.Machine.resume, hstart, h.firstExact?,
      h.hasExtension (typed ++ [k]) (by simp)]
  simp only [Chord.Machine.handle, hstart, hresume]

end Registry

namespace Resolver

/-- What some events answer in turn, each with the machine after it. -/
def trace (r : Resolver) : List Event → List (Answer × Chord.Machine)
  | [] => []
  | event :: events =>
    ((r.step event).1, (r.step event).2.machine) :: (r.step event).2.trace events

/-- The trace has the answers of the run. -/
theorem map_fst_trace (r : Resolver) (events : List Event) :
    (r.trace events).map Prod.fst = (r.run events).1 := by
  induction events generalizing r with
  | nil => rfl
  | cons event events ih => simp [trace, run_cons, ih]

variable {registry registry' : Registry} {events : List Event}

/-- Registries that look alike in the context of each keystroke have the same runs. -/
theorem trace_eq_of_looksLike (hedits : ∀ edits, Event.edit edits ∉ events)
    (hlooks : ∀ k context now, Event.keystroke k context now ∈ events →
      registry.LooksLike context registry' context) (machine : Chord.Machine) :
    trace ⟨registry, machine⟩ events = trace ⟨registry', machine⟩ events := by
  induction events generalizing machine with
  | nil => rfl
  | cons event events ih =>
    simp only [List.mem_cons, not_or] at hedits hlooks
    have hrest : ∀ machine,
        trace ⟨registry, machine⟩ events = trace ⟨registry', machine⟩ events := by
      apply ih
      · intro edits
        exact (hedits edits).2
      · intro k context now hmem
        exact hlooks k context now (Or.inr hmem)
    -- Events other than keystrokes and edits do not look at the registry.
    cases event with
    | keystroke k context now =>
      have hhandle := (hlooks k context now (Or.inl rfl)).handle_eq machine k now
      simp only [trace, step, handle, hhandle, hrest]
    | edit edits => exact absurd rfl (hedits edits).1
    | _ => simp only [trace, step, hrest]

/-- Let two reachable registries have the same commands, and let those that have the same keybinding
be in the same order. Whatever happens to a machine over the one or the other, every answer and
every state of the machine is the same, as long as the registry is not edited. -/
theorem trace_eq_of_same_order (hr : registry.Reachable) (hr' : registry'.Reachable)
    (hcommands : ∀ c, c ∈ registry.commands ↔ c ∈ registry'.commands)
    (horder : ∀ c d keys, c.effectiveKeys = some keys → d.effectiveKeys = some keys →
      (registry.Before c d ↔ registry'.Before c d))
    (hedits : ∀ edits, Event.edit edits ∉ events) (machine : Chord.Machine) :
    trace ⟨registry, machine⟩ events = trace ⟨registry', machine⟩ events := by
  have hsame : ∀ context, Registry.SameActive context registry registry' := by
    intro context
    constructor
    · intro c _ _ _
      exact hcommands c
    · intro c d keys hc hd _ _
      exact horder c d keys hc hd
  apply trace_eq_of_looksLike hedits
  intro _ context _ _
  exact (hsame context).looksLike hr.indexed hr'.indexed

/-- Two rivals for one keystroke, and a chord. -/
def rivalsFirst : List Command := Registry.rivals ++ [openSettings]

/-- The same commands; the rivals are still in the same order. -/
def rivalsLast : List Command := openSettings :: Registry.rivals

/-- The keystroke of the rivals is typed, and then the chord. -/
def rivalThenChord : List Event :=
  [.keystroke ctrlS .empty 0, .keystroke ctrlK .empty 10, .tick 20, .keystroke ctrlS .empty 30]

/-- The rivals and the chord answer alike, whether the chord is registered last or first. -/
theorem trace_rivalsFirst :
    (∀ c, c ∈ (Registry.ofList rivalsFirst).commands ↔
        c ∈ (Registry.ofList rivalsLast).commands) ∧
      (∀ c d keys, c.effectiveKeys = some keys → d.effectiveKeys = some keys →
        ((Registry.ofList rivalsFirst).Before c d ↔ (Registry.ofList rivalsLast).Before c d)) ∧
      trace (ofRegistry (.ofList rivalsFirst) default default) rivalThenChord =
        trace (ofRegistry (.ofList rivalsLast) default default) rivalThenChord := by
  have hfirst : (Registry.ofList rivalsFirst).commands = rivalsFirst :=
    Registry.commands_ofList (by decide)
  have hlast : (Registry.ofList rivalsLast).commands = rivalsLast :=
    Registry.commands_ofList (by decide)
  have hmem : ∀ c, c ∈ rivalsFirst ↔ c ∈ rivalsLast := by
    intro c
    exact List.Perm.mem_iff (by decide)
  have hpairs : ∀ c ∈ rivalsFirst, ∀ d ∈ rivalsFirst, c.effectiveKeys = d.effectiveKeys →
      ([c, d].Sublist rivalsFirst ↔ [c, d].Sublist rivalsLast) := by decide
  have hcommands : ∀ c, c ∈ (Registry.ofList rivalsFirst).commands ↔
      c ∈ (Registry.ofList rivalsLast).commands := by
    rw [hfirst, hlast]
    exact hmem
  have horder : ∀ c d keys, c.effectiveKeys = some keys → d.effectiveKeys = some keys →
      ((Registry.ofList rivalsFirst).Before c d ↔ (Registry.ofList rivalsLast).Before c d) := by
    intro c d keys hc hd
    rw [Registry.Before, Registry.Before, hfirst, hlast]
    constructor
    · intro h
      exact (hpairs c (h.subset (by simp)) d (h.subset (by simp)) (hc.trans hd.symm)).mp h
    · intro h
      have hc' := (hmem c).mpr (h.subset (by simp))
      have hd' := (hmem d).mpr (h.subset (by simp))
      exact (hpairs c hc' d hd' (hc.trans hd.symm)).mpr h
  refine ⟨hcommands, horder, ?_⟩
  exact trace_eq_of_same_order (Registry.reachable_ofList _) (Registry.reachable_ofList _)
    hcommands horder (by simp [rivalThenChord]) _

/-- A registered command can be removed. If it is hidden in the context of each keystroke, whatever
happens to a machine over the registry with it or without it, every answer and every state of the
machine is the same, as long as the registry is not edited further. -/
theorem trace_eq_of_hidden (hr : registry.Reachable) {c : Command}
    (hc : c ∈ registry.commands) :
    ∃ registry', registry.unregister? c.id = some (c, registry') ∧
      registry'.commands = registry.commands.erase c ∧
      ∀ (events : List Event) (machine : Chord.Machine), (∀ edits, Event.edit edits ∉ events) →
        (∀ k context now, Event.keystroke k context now ∈ events → c.Hidden context) →
          trace ⟨registry, machine⟩ events = trace ⟨registry', machine⟩ events := by
  obtain ⟨registry', hremoved, hcommands⟩ := hr.indexed.exists_unregister? hc
  have hr' := hr.indexed.unregister? hremoved
  refine ⟨registry', hremoved, hcommands, fun events machine hedits hhidden => ?_⟩
  apply trace_eq_of_looksLike hedits
  intro k context now hmem
  have hsame := Registry.sameActive_of_erase hr.indexed (hhidden k context now hmem) hcommands
  exact hsame.looksLike hr.indexed hr'

/-- A when-clause over two context keys. -/
def editorClause : String := "editorFocus && !editorReadonly"

/-- The command of the chord, but for an editor whose text can be changed. -/
def settingsInEditor : Command :=
  { openSettings with id := "editorSettings", defaultWhen := some (.ofSource editorClause) }

theorem expr_editorClause : (When.Clause.ofSource editorClause).expr =
    some (.and (.key "editorFocus") (.not (.key "editorReadonly"))) := by
  have htokens : When.tokenize editorClause =
      .ok [⟨.word "editorFocus", 0⟩, ⟨.and, 12⟩, ⟨.not, 15⟩, ⟨.word "editorReadonly", 16⟩] := by
    decide +kernel
  let d : When.Derivation (.chain .or) :=
    .chain (.chain (.key "editorFocus") (.cons (.not (.key "editorReadonly")) .nil)) .nil
  have hparse : When.parse editorClause = .ok d.expr := by
    rw [d.parse_of_spells (When.spells_iff.mpr ⟨_, htokens, rfl⟩)]
    exact if_pos (by decide)
  exact congrArg Except.toOption hparse

/-- Outside of an editor the command does not take the chord from the one registered after it. -/
theorem trace_settingsInEditor :
    settingsInEditor ∈ (Registry.ofList [settingsInEditor, openSettings]).commands ∧
      settingsInEditor.Hidden .empty ∧
      ∃ registry', (Registry.ofList [settingsInEditor, openSettings]).unregister? "editorSettings" =
          some (settingsInEditor, registry') ∧
        trace (ofRegistry (.ofList [settingsInEditor, openSettings]) default default)
            rivalThenChord =
          trace (ofRegistry registry' default default) rivalThenChord := by
  have hcommands : (Registry.ofList [settingsInEditor, openSettings]).commands =
      [settingsInEditor, openSettings] := Registry.commands_ofList (by decide)
  have hmem : settingsInEditor ∈ (Registry.ofList [settingsInEditor, openSettings]).commands := by
    simp [hcommands]
  have hhidden : settingsInEditor.Hidden .empty := by
    refine Or.inr ⟨_, rfl, ?_⟩
    rw [expr_editorClause]
    rintro e ⟨⟩
    rfl
  obtain ⟨registry', hremoved, -, htrace⟩ :=
    trace_eq_of_hidden (Registry.reachable_ofList [settingsInEditor, openSettings]) hmem
  refine ⟨hmem, hhidden, registry', hremoved, htrace _ _ (by simp [rivalThenChord]) ?_⟩
  intro k context now hkeystroke
  have hempty : context = .empty := by grind [rivalThenChord]
  rw [hempty]
  exact hhidden

end Resolver

end KeyChord
