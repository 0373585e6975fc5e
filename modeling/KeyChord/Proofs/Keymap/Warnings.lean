import KeyChord.Keymap.Lint

/-!
# What the warnings are about

Each warning comes from certain commands of the keymap, and each such command has its warning.

The module introduces:

* `Command.AlwaysWants c keys`: the command `c` comes with the keybinding `keys` and without a
  when-clause. The warnings about keybindings are about pairs of such commands.

The statements are `invalidClause_mem_warnings_iff`, `shadowed_mem_warnings_iff` and
`startsChord_mem_warnings_iff`.
-/

namespace KeyChord

/-- The command comes with the keybinding and without a when-clause. -/
structure Command.AlwaysWants (c : Command) (keys : Keybinding) : Prop where
  /-- The command comes without a when-clause. -/
  unconditional : c.defaultWhen = none
  /-- The command comes with the keybinding. -/
  keys_eq : c.defaultKeys = some keys

namespace Keybinding

variable {a b : Keybinding}

/-- A keybinding that goes on after another is another. -/
theorem ne_of_properlyExtends (h : a.properlyExtends b.keystrokes = true) : a ≠ b := by
  rintro rfl
  exact ((properlyExtends_iff a a.keystrokes).mp h).2 rfl

/-- No keybinding goes on after one that goes on after it. -/
theorem not_properlyExtends_of_properlyExtends (h : a.properlyExtends b.keystrokes = true) :
    ¬b.properlyExtends a.keystrokes = true := by
  intro h'
  obtain ⟨hab, hne⟩ := (properlyExtends_iff a b.keystrokes).mp h
  obtain ⟨hba, -⟩ := (properlyExtends_iff b a.keystrokes).mp h'
  exact hne (hba.eq_of_length (Nat.le_antisymm hba.length_le hab.length_le))

end Keybinding

namespace Keymap

variable {keymap : Keymap} {id : String} {keys : Keybinding}

/-! ## Commands by themselves -/

/-- The text of a when-clause is at fault if it does not parse. -/
theorem clauseFault?_eq_some_iff {clause : When.Clause} {error : When.ParseError} :
    clauseFault? clause = some error ↔ When.parse clause.source = .error error := by
  rw [clauseFault?]
  cases When.parse clause.source <;> simp

/-- What is reported about a command by itself: that its name is repeated, or its when-clause. -/
theorem mem_commandWarnings_iff {seen : List String} {c : Command} {w : Warning} :
    w ∈ commandWarnings seen c ↔
      c.id ∈ seen ∧ w = .repeated c.id ∨
        ∃ clause ∈ c.defaultWhen, ∃ error, When.parse clause.source = .error error ∧
          w = .invalidClause c.id clause.source error := by
  rw [commandWarnings, List.mem_append, Option.mem_toList, Option.bind_eq_some_iff]
  refine or_congr ?_ (exists_congr fun clause => and_congr_right fun _ => ?_)
  · by_cases hseen : c.id ∈ seen
    · rw [if_pos (List.contains_iff_mem.mpr hseen), List.mem_singleton]
      exact (and_iff_right hseen).symm
    · rw [if_neg (mt List.contains_iff_mem.mp hseen)]
      exact iff_of_false List.not_mem_nil fun h => hseen h.1
  · rw [Option.map_eq_some_iff]
    refine exists_congr fun error => and_congr clauseFault?_eq_some_iff ?_
    exact eq_comm

/-- What is reported about each of some commands is about one of them. -/
theorem exists_of_mem_listWarnings {seen : List String} {commands : List Command} {w : Warning}
    (h : w ∈ listWarnings seen commands) : ∃ c ∈ commands, ∃ seen, w ∈ commandWarnings seen c := by
  induction commands generalizing seen with
  | nil => cases h
  | cons c commands ih =>
    rcases List.mem_append.mp h with hhead | hrest
    · exact ⟨c, List.mem_cons_self, seen, hhead⟩
    · obtain ⟨d, hd, hw⟩ := ih hrest
      exact ⟨d, List.mem_cons_of_mem c hd, hw⟩

/-- Whatever is reported about a command by itself, whichever names stand before it, is reported
about the commands that it is one of. -/
theorem mem_listWarnings {seen : List String} {commands : List Command} {c : Command} {w : Warning}
    (hc : c ∈ commands) (hw : ∀ seen, w ∈ commandWarnings seen c) :
    w ∈ listWarnings seen commands := by
  induction commands generalizing seen with
  | nil => cases hc
  | cons d commands ih =>
    rw [listWarnings, List.mem_append]
    rcases List.mem_cons.mp hc with rfl | hc
    · exact Or.inl (hw seen)
    · exact Or.inr (ih hc)

/-! ## Pairs of commands -/

/-- The warnings about each two of some commands are those about the pairs among them. -/
theorem mem_pairWarnings_iff {commands : List (Command × Keybinding)} {w : Warning} :
    w ∈ pairWarnings commands ↔
      ∃ first second, [first, second].Sublist commands ∧ pairWarning first second = some w := by
  induction commands with
  | nil => simp [pairWarnings]
  | cons a commands ih =>
    rw [pairWarnings, List.mem_append, ih, List.mem_filterMap]
    constructor
    · rintro (⟨second, hmem, hw⟩ | ⟨first, second, hsub, hw⟩)
      · exact ⟨a, second, (List.singleton_sublist.mpr hmem).cons_cons a, hw⟩
      · exact ⟨first, second, hsub.cons a, hw⟩
    · rintro ⟨first, second, hsub, hw⟩
      rcases List.sublist_cons_iff.mp hsub with hsub | ⟨rest, heq, hsub⟩
      · exact Or.inr ⟨first, second, hsub, hw⟩
      · obtain ⟨rfl, rfl⟩ := List.cons.inj heq
        exact Or.inl ⟨second, List.singleton_sublist.mp hsub, hw⟩

/-- What is kept as unconditional are the commands that always want their keystrokes. -/
theorem mem_unconditional_iff {c : Command} :
    (c, keys) ∈ keymap.unconditional ↔ c ∈ keymap.commands ∧ c.AlwaysWants keys := by
  simp only [unconditional, List.mem_filterMap, List.mem_filter, Option.isNone_iff_eq_none,
    Option.map_eq_some_iff, Prod.mk.injEq]
  constructor
  · rintro ⟨c', ⟨hmem, hwhen⟩, keys', hkeys, rfl, rfl⟩
    exact ⟨hmem, hwhen, hkeys⟩
  · rintro ⟨hmem, hwhen, hkeys⟩
    exact ⟨c, ⟨hmem, hwhen⟩, keys, hkeys, rfl, rfl⟩

/-- The commands that always want their keystrokes are in the order of the keymap. -/
theorem map_fst_unconditional_sublist (keymap : Keymap) :
    (keymap.unconditional.map Prod.fst).Sublist keymap.commands := by
  have hkept : ∀ c : Command, ((c.defaultKeys.map (c, ·)).map Prod.fst) =
      Option.guard (fun c => c.defaultKeys.isSome) c := by
    intro c
    cases hkeys : c.defaultKeys <;> simp [Option.guard, hkeys]
  rw [unconditional, List.map_filterMap]
  simp only [hkept]
  rw [List.filterMap_eq_filter]
  exact List.filter_sublist.trans List.filter_sublist

/-- Two commands are an unconditional pair if both always want their keystrokes. -/
theorem pair_sublist_unconditional_iff {first second : Command} {kf ks : Keybinding} :
    [(first, kf), (second, ks)].Sublist keymap.unconditional ↔
      [first, second].Sublist keymap.commands ∧ first.AlwaysWants kf ∧ second.AlwaysWants ks := by
  constructor
  · intro hsub
    have hfirst := mem_unconditional_iff.mp (hsub.subset List.mem_cons_self)
    have hsecond := mem_unconditional_iff.mp (hsub.subset (List.mem_cons_of_mem _
      (List.mem_singleton_self _)))
    exact ⟨(hsub.map Prod.fst).trans (map_fst_unconditional_sublist keymap), hfirst.2, hsecond.2⟩
  · rintro ⟨hsub, hfirst, hsecond⟩
    -- Both pass the filter and have a keybinding, so that they stay a pair.
    have hkept := (hsub.filter (·.defaultWhen.isNone)).filterMap
      fun c : Command => c.defaultKeys.map (c, ·)
    simpa [hfirst.unconditional, hfirst.keys_eq, hsecond.unconditional, hsecond.keys_eq,
      unconditional] using hkept

/-- A warning about a pair says that one shadows the other or that one starts the chord of the
other. -/
theorem eq_of_pairWarning_eq_some {first second : Command × Keybinding} {w : Warning}
    (h : pairWarning first second = some w) :
    (∃ id keys shadowedBy, w = .shadowed id keys shadowedBy) ∨
      ∃ id keys chord, w = .startsChord id keys chord := by
  rw [pairWarning] at h
  split at h
  · exact Or.inl ⟨_, _, _, (Option.some.inj h).symm⟩
  · split at h
    · exact Or.inr ⟨_, _, _, (Option.some.inj h).symm⟩
    · split at h
      · exact Or.inr ⟨_, _, _, (Option.some.inj h).symm⟩
      · cases h

/-- The second of two commands is reported as shadowed if both have the keybinding. -/
theorem pairWarning_eq_shadowed_iff {first second : Command × Keybinding} {shadowedBy : String} :
    pairWarning first second = some (.shadowed id keys shadowedBy) ↔
      first.2 = keys ∧ second.2 = keys ∧ first.1.id = shadowedBy ∧ second.1.id = id := by
  constructor
  · intro h
    rw [pairWarning] at h
    by_cases hsame : first.2 = second.2
    · rw [if_pos hsame] at h
      cases h
      exact ⟨hsame, rfl, rfl, rfl⟩
    · rw [if_neg hsame] at h
      split at h
      · cases h
      · split at h <;> cases h
  · rintro ⟨hfirst, hsecond, rfl, rfl⟩
    rw [pairWarning, if_pos (hfirst.trans hsecond.symm), hsecond]

/-- One of two commands is reported for the chord of the other if that goes on after its own
keybinding. -/
theorem pairWarning_eq_startsChord_iff {first second : Command × Keybinding} {chord : String} :
    pairWarning first second = some (.startsChord id keys chord) ↔
      first.2 = keys ∧ second.2.properlyExtends keys.keystrokes = true ∧ first.1.id = id ∧
          second.1.id = chord ∨
        second.2 = keys ∧ first.2.properlyExtends keys.keystrokes = true ∧ second.1.id = id ∧
          first.1.id = chord := by
  constructor
  · intro h
    rw [pairWarning] at h
    by_cases hsame : first.2 = second.2
    · rw [if_pos hsame] at h
      cases h
    · rw [if_neg hsame] at h
      by_cases hsecond : second.2.properlyExtends first.2.keystrokes = true
      · rw [if_pos hsecond] at h
        cases h
        exact Or.inl ⟨rfl, hsecond, rfl, rfl⟩
      · rw [if_neg hsecond] at h
        split at h
        next hfirst =>
          cases h
          exact Or.inr ⟨rfl, hfirst, rfl, rfl⟩
        next => cases h
  · -- Of two keybindings at most one goes on after the other, so that no earlier branch is taken.
    rintro (⟨rfl, hextends, rfl, rfl⟩ | ⟨rfl, hextends, rfl, rfl⟩)
    · have hne := Keybinding.ne_of_properlyExtends hextends
      rw [pairWarning, if_neg hne.symm, if_pos hextends]
    · have hne := Keybinding.ne_of_properlyExtends hextends
      have hnot := Keybinding.not_properlyExtends_of_properlyExtends hextends
      rw [pairWarning, if_neg hne, if_neg hnot, if_pos hextends]

/-! ## The warnings of a keymap -/

/-- A warning about a keymap is about a command by itself, a pair of commands or an override. -/
theorem mem_warnings_iff {w : Warning} :
    w ∈ keymap.warnings ↔
      w ∈ listWarnings [] keymap.commands ∨ w ∈ pairWarnings keymap.unconditional ∨
        ∃ o ∈ keymap.overrides, overrideWarning o = some w := by
  rw [warnings, List.mem_append, List.mem_append, List.mem_filterMap, or_assoc]

/-- A warning about an override is about its when-clause. -/
theorem eq_of_overrideWarning_eq_some {o : Override} {w : Warning}
    (h : overrideWarning o = some w) :
    ∃ source error, w = .invalidOverrideClause o.command source error := by
  obtain ⟨clause, -, hw⟩ := Option.bind_eq_some_iff.mp h
  obtain ⟨error, -, rfl⟩ := Option.map_eq_some_iff.mp hw
  exact ⟨clause.source, error, rfl⟩

/-- A warning about a keybinding is found among those about pairs. -/
theorem mem_warnings_iff_exists_pair {w : Warning} (hrepeated : ∀ id, w ≠ .repeated id)
    (hclause : ∀ id source error, w ≠ .invalidClause id source error)
    (hoverride : ∀ id source error, w ≠ .invalidOverrideClause id source error) :
    w ∈ keymap.warnings ↔
      ∃ first second, [first, second].Sublist keymap.unconditional ∧
        pairWarning first second = some w := by
  rw [mem_warnings_iff, ← mem_pairWarnings_iff]
  constructor
  · rintro (hlist | hpairs | ⟨o, -, ho⟩)
    · obtain ⟨c, -, seen, hw⟩ := exists_of_mem_listWarnings hlist
      rcases mem_commandWarnings_iff.mp hw with ⟨-, heq⟩ | ⟨clause, -, error, -, heq⟩
      · exact absurd heq (hrepeated _)
      · exact absurd heq (hclause _ _ _)
    · exact hpairs
    · obtain ⟨source, error, heq⟩ := eq_of_overrideWarning_eq_some ho
      exact absurd heq (hoverride _ _ _)
  · exact fun hpairs => Or.inr (Or.inl hpairs)

/-- A command is reported for its when-clause exactly if it comes with one that does not parse. -/
theorem invalidClause_mem_warnings_iff {source : String} {error : When.ParseError} :
    .invalidClause id source error ∈ keymap.warnings ↔
      ∃ c ∈ keymap.commands, c.id = id ∧ ∃ clause ∈ c.defaultWhen,
        clause.source = source ∧ When.parse source = .error error := by
  rw [mem_warnings_iff]
  constructor
  · rintro (hlist | hpairs | ⟨o, -, ho⟩)
    · obtain ⟨c, hc, seen, hw⟩ := exists_of_mem_listWarnings hlist
      rcases mem_commandWarnings_iff.mp hw with ⟨-, heq⟩ | ⟨clause, hclause, error', hparse, heq⟩
      · cases heq
      · cases heq
        exact ⟨c, hc, rfl, clause, hclause, rfl, hparse⟩
    · obtain ⟨first, second, -, hw⟩ := mem_pairWarnings_iff.mp hpairs
      rcases eq_of_pairWarning_eq_some hw with ⟨_, _, _, heq⟩ | ⟨_, _, _, heq⟩ <;> cases heq
    · obtain ⟨source', error', heq⟩ := eq_of_overrideWarning_eq_some ho
      cases heq
  · rintro ⟨c, hc, rfl, clause, hclause, rfl, hparse⟩
    refine Or.inl (mem_listWarnings hc fun seen => mem_commandWarnings_iff.mpr (Or.inr ?_))
    exact ⟨clause, hclause, error, hparse, rfl⟩

/-- A command is reported as shadowed exactly if it and one listed before it always want the same
keystrokes. -/
theorem shadowed_mem_warnings_iff {shadowedBy : String} :
    .shadowed id keys shadowedBy ∈ keymap.warnings ↔
      ∃ first second, [first, second].Sublist keymap.commands ∧ first.AlwaysWants keys ∧
        second.AlwaysWants keys ∧ first.id = shadowedBy ∧ second.id = id := by
  rw [mem_warnings_iff_exists_pair (fun _ h => (by cases h)) (fun _ _ _ h => (by cases h))
    (fun _ _ _ h => (by cases h))]
  constructor
  · rintro ⟨⟨first, kf⟩, ⟨second, ks⟩, hsub, hw⟩
    obtain ⟨rfl, rfl, hfirst, hsecond⟩ := pairWarning_eq_shadowed_iff.mp hw
    obtain ⟨hsub, hwf, hws⟩ := pair_sublist_unconditional_iff.mp hsub
    exact ⟨first, second, hsub, hwf, hws, hfirst, hsecond⟩
  · rintro ⟨first, second, hsub, hwf, hws, hfirst, hsecond⟩
    exact ⟨(first, keys), (second, keys), pair_sublist_unconditional_iff.mpr ⟨hsub, hwf, hws⟩,
      pairWarning_eq_shadowed_iff.mpr ⟨rfl, rfl, hfirst, hsecond⟩⟩

/-- A command is reported for starting a chord exactly if it and another always want their
keystrokes, and those of the other go on after its own. -/
theorem startsChord_mem_warnings_iff {chord : String} :
    .startsChord id keys chord ∈ keymap.warnings ↔
      ∃ c d kb, ([c, d].Sublist keymap.commands ∨ [d, c].Sublist keymap.commands) ∧
        c.AlwaysWants keys ∧ d.AlwaysWants kb ∧ kb.properlyExtends keys.keystrokes = true ∧
        c.id = id ∧ d.id = chord := by
  rw [mem_warnings_iff_exists_pair (fun _ h => (by cases h)) (fun _ _ _ h => (by cases h))
    (fun _ _ _ h => (by cases h))]
  constructor
  · rintro ⟨⟨first, kf⟩, ⟨second, ks⟩, hsub, hw⟩
    obtain ⟨hsub, hwf, hws⟩ := pair_sublist_unconditional_iff.mp hsub
    rcases pairWarning_eq_startsChord_iff.mp hw with
      ⟨rfl, hextends, hfirst, hsecond⟩ | ⟨rfl, hextends, hsecond, hfirst⟩
    · exact ⟨first, second, ks, Or.inl hsub, hwf, hws, hextends, hfirst, hsecond⟩
    · exact ⟨second, first, kf, Or.inr hsub, hws, hwf, hextends, hsecond, hfirst⟩
  · rintro ⟨c, d, kb, hsub | hsub, hwc, hwd, hextends, hc, hd⟩
    · exact ⟨(c, keys), (d, kb), pair_sublist_unconditional_iff.mpr ⟨hsub, hwc, hwd⟩,
        pairWarning_eq_startsChord_iff.mpr (Or.inl ⟨rfl, hextends, hc, hd⟩)⟩
    · exact ⟨(d, kb), (c, keys), pair_sublist_unconditional_iff.mpr ⟨hsub, hwd, hwc⟩,
        pairWarning_eq_startsChord_iff.mpr (Or.inr ⟨rfl, hextends, hc, hd⟩)⟩

end Keymap

end KeyChord
