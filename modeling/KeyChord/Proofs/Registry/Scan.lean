import KeyChord.Proofs.Lists
import KeyChord.Proofs.Registry.Index
import KeyChord.Registry.Lookup

/-!
# Lookups are scans

Lookups go through the index of first keystrokes. In a reachable registry each of them gives what a
scan of all commands gives, in the order of registration.

The module introduces:

* `Command.BoundTo`, `Command.GoesOnAfter`, `Command.CollidesWith`: how the effective keybinding of
  a command stands to a sequence of keystrokes.
* `Registry.Before r d c`: `d` stands before `c` in the order of registration.

The main statement is `Registry.Reachable.lookup_eq_scan`. Further modules look commands up through
`Indexed.firstExact?_eq_some_iff`, `Indexed.firstExact?_eq_none_iff` and
`Indexed.hasExtension_iff_exists`.
-/

namespace KeyChord

namespace Command

/-- A command that comes with a keybinding, and shows its name to users. -/
def ofKeys (id : String) (keys : Keybinding) : Command :=
  { id, label := id, category := "General", defaultKeys := some keys }

variable (c : Command) (sequence : List Keystroke) (keys : Keybinding) (context : Context)

/-- The effective keybinding is the sequence. -/
def BoundTo : Prop :=
  ∃ kb ∈ c.effectiveKeys, kb.keystrokes = sequence

/-- The effective keybinding starts with the sequence and goes on. -/
def GoesOnAfter : Prop :=
  ∃ kb ∈ c.effectiveKeys, sequence <+: kb.keystrokes ∧ kb.keystrokes ≠ sequence

/-- The effective keybinding is the given one, the start of it or a continuation of it. -/
def CollidesWith : Prop :=
  ∃ kb ∈ c.effectiveKeys,
    kb = keys ∨ kb.keystrokes <+: keys.keystrokes ∨ keys.keystrokes <+: kb.keystrokes

instance : Decidable (c.BoundTo sequence) :=
  inferInstanceAs (Decidable (∃ kb ∈ c.effectiveKeys, kb.keystrokes = sequence))

instance : Decidable (c.GoesOnAfter sequence) :=
  inferInstanceAs (Decidable (∃ kb ∈ c.effectiveKeys,
    sequence <+: kb.keystrokes ∧ kb.keystrokes ≠ sequence))

instance : Decidable (c.CollidesWith keys) :=
  inferInstanceAs (Decidable (∃ kb ∈ c.effectiveKeys,
    kb = keys ∨ kb.keystrokes <+: keys.keystrokes ∨ keys.keystrokes <+: kb.keystrokes))

/-- The keystroke that the effective keybinding starts with. -/
def firstKey? : Option Keystroke :=
  c.effectiveKeys.map Keybinding.first

variable {c sequence keys}

/-- No command is bound to the empty sequence. -/
theorem not_boundTo_nil : ¬c.BoundTo [] := by
  rintro ⟨kb, -, hkb⟩
  exact kb.nonempty hkb

/-- A command is bound to the keystrokes of its effective keybinding. -/
theorem boundTo_keystrokes_iff {kb : Keybinding} :
    c.BoundTo kb.keystrokes ↔ c.effectiveKeys = some kb := by
  constructor
  · rintro ⟨kb', hkb', heq⟩
    rw [← Keybinding.ext heq]
    exact hkb'
  · intro hkb
    exact ⟨kb, hkb, rfl⟩

/-- The keystroke that a command starts with is the first of its effective keybinding. -/
theorem firstKey?_eq_head? {kb : Keybinding} (hkb : kb ∈ c.effectiveKeys) :
    c.firstKey? = kb.keystrokes.head? := by
  rw [firstKey?, hkb, Option.map_some, Keybinding.first, ← List.head?_eq_some_head kb.nonempty]

/-- A sequence starts with the keystroke that a non-empty prefix of it starts with. -/
theorem head?_eq_of_isPrefix {short long : List Keystroke} (hne : short ≠ [])
    (h : short <+: long) : short.head? = long.head? := by
  obtain ⟨rest, rfl⟩ := h
  rw [List.head?_append_of_ne_nil short hne]

/-- A command bound to a sequence starts with its first keystroke. -/
theorem BoundTo.firstKey? (h : c.BoundTo sequence) : c.firstKey? = sequence.head? := by
  obtain ⟨kb, hkb, rfl⟩ := h
  exact firstKey?_eq_head? hkb

/-- A command that goes on after a sequence starts with its first keystroke. -/
theorem GoesOnAfter.firstKey? (h : c.GoesOnAfter sequence) (hne : sequence ≠ []) :
    c.firstKey? = sequence.head? := by
  obtain ⟨kb, hkb, hstart, -⟩ := h
  rw [firstKey?_eq_head? hkb, head?_eq_of_isPrefix hne hstart]

/-- A command that collides with a keybinding starts with its first keystroke. -/
theorem CollidesWith.firstKey? (h : c.CollidesWith keys) :
    c.firstKey? = keys.keystrokes.head? := by
  obtain ⟨kb, hkb, rfl | hstart | hstart⟩ := h
  · exact firstKey?_eq_head? hkb
  · rw [firstKey?_eq_head? hkb, head?_eq_of_isPrefix kb.nonempty hstart]
  · rw [firstKey?_eq_head? hkb, head?_eq_of_isPrefix keys.nonempty hstart]

end Command

namespace Registry

/-- `d` stands before `c` in the order of registration. -/
def Before (r : Registry) (d c : Command) : Prop :=
  [d, c].Sublist r.commands

variable {r : Registry} (sequence : List Keystroke) (context : Context)

/-! ## What the filters of the lookups mean -/

/-- A sequence triggers the active commands that are bound to it. -/
theorem triggers_eq_true_iff (c : Command) :
    triggers sequence context c = true ↔ c.BoundTo sequence ∧ c.isEnabled context = true := by
  simp [triggers, Command.BoundTo, Keybinding.isExactly, Option.any_eq_true]

/-- Active commands that go on after a sequence wait for more. -/
theorem awaits_eq_true_iff (c : Command) :
    awaits sequence context c = true ↔ c.GoesOnAfter sequence ∧ c.isEnabled context = true := by
  simp [awaits, Command.GoesOnAfter, Keybinding.properlyExtends_iff, Option.any_eq_true]

/-- Candidates are commands of the registry. -/
theorem mem_commands_of_mem_candidates {r : Registry} {c : Command}
    (h : c ∈ r.candidates sequence) : c ∈ r.commands := by
  cases sequence with
  | nil => cases h
  | cons first rest =>
    obtain ⟨position, -, hposition⟩ := List.mem_filterMap.mp h
    exact List.mem_of_getElem? hposition

/-- What `conflicts` asks of a command is that it collides with the keybinding. -/
theorem conflicts_filter_iff (keys : Keybinding) (c : Command) :
    (c.effectiveKeys.any fun kb =>
      kb.startsWith keys.keystrokes || keys.startsWith kb.keystrokes) = true ↔
      c.CollidesWith keys := by
  rw [Option.any_eq_true]
  refine exists_congr fun kb => and_congr_right fun _ => ?_
  rw [Bool.or_eq_true, Keybinding.startsWith, Keybinding.startsWith, List.isPrefixOf_iff_prefix,
    List.isPrefixOf_iff_prefix, or_comm]
  -- The case of equality is one of starting with the other.
  refine (or_iff_right_of_imp ?_).symm
  rintro rfl
  exact Or.inl (List.prefix_refl _)

/-! ## The index of first keystrokes -/

/-- The positions of the commands that start with a keystroke. -/
def positionsStarting (commands : List (Command × Nat)) (k : Keystroke) : List Nat :=
  (commands.filter (·.1.firstKey? = some k)).map Prod.snd

/-- Adding one command to the index adds its position under its first keystroke. -/
theorem getD_addFirst (index : Std.HashMap Keystroke (List Nat)) (c : Command) (i : Nat)
    (k : Keystroke) :
    (addFirst index c i).getD k [] =
      index.getD k [] ++ if c.firstKey? = some k then [i] else [] := by
  rw [addFirst, Command.firstKey?]
  cases c.effectiveKeys with
  | none => simp
  | some kb =>
    by_cases hk : kb.first = k
    · subst hk
      simp
    · simp [Std.HashMap.getD_insert, hk]

/-- Under each keystroke stand the positions of the commands that start with it, in order. -/
theorem getD_indexFirst (commands : List Command) (k : Keystroke) :
    (indexFirst commands).getD k [] = positionsStarting commands.zipIdx k := by
  -- The positions found so far stay in front of those that are still to come.
  have hfold : ∀ (l : List (Command × Nat)) (index : Std.HashMap Keystroke (List Nat)),
      (l.foldl (fun index p => addFirst index p.1 p.2) index).getD k [] =
        index.getD k [] ++ positionsStarting l k := by
    intro l
    induction l with
    | nil => simp [positionsStarting]
    | cons p l ih =>
      intro index
      rw [List.foldl_cons, ih, getD_addFirst, List.append_assoc]
      by_cases hp : p.1.firstKey? = some k <;> simp [positionsStarting, hp]
  refine (hfold commands.zipIdx ∅).trans ?_
  rw [Std.HashMap.getD_empty, List.nil_append]

/-- The commands at the positions of those that start with a keystroke are those commands. -/
theorem filterMap_positionsStarting (commands : List Command) (k : Keystroke) :
    (positionsStarting commands.zipIdx k).filterMap (commands[·]?) =
      commands.filter (·.firstKey? = some k) := by
  rw [positionsStarting, List.filterMap_map]
  calc (commands.zipIdx.filter (·.1.firstKey? = some k)).filterMap
        ((fun i => commands[i]?) ∘ Prod.snd)
      = (commands.zipIdx.filter (·.1.firstKey? = some k)).filterMap (some ∘ Prod.fst) := by
        refine List.filterMap_congr fun p hp => ?_
        exact List.mem_zipIdx_iff_getElem?.mp (List.mem_of_mem_filter hp)
    _ = (commands.zipIdx.map Prod.fst).filter (·.firstKey? = some k) := by
        rw [List.filterMap_eq_map, List.filter_map]
        rfl
    _ = commands.filter (·.firstKey? = some k) := by rw [List.zipIdx_map_fst]

namespace Indexed

variable {sequence context}

/-- Only positions of commands are kept in the index of first keystrokes. -/
theorem lt_length_of_mem_byFirst (h : r.Indexed) {k : Keystroke} {is : List Nat}
    (his : r.byFirst[k]? = some is) {i : Nat} (hi : i ∈ is) : i < r.commands.length := by
  have heq := getD_indexFirst r.commands k
  rw [← h.byFirst, Std.HashMap.getD_eq_getD_getElem?, his, Option.getD_some] at heq
  rw [heq, positionsStarting] at hi
  obtain ⟨p, hp, rfl⟩ := List.mem_map.mp hi
  simpa using List.snd_lt_of_mem_zipIdx (List.mem_of_mem_filter hp)

/-- The candidates for a sequence are the commands that start with its first keystroke. -/
theorem candidates_eq_filter (h : r.Indexed) (hne : sequence ≠ []) :
    r.candidates sequence = r.commands.filter (·.firstKey? = sequence.head?) := by
  obtain ⟨k, rest, rfl⟩ := List.exists_cons_of_ne_nil hne
  rw [candidates, h.byFirst, getD_indexFirst, filterMap_positionsStarting, List.head?_cons]

/-- A filter that only commands with the right first keystroke pass finds them all among the
candidates. -/
theorem filter_candidates (h : r.Indexed) (hne : sequence ≠ []) {p : Command → Bool}
    (hp : ∀ c, p c = true → c.firstKey? = sequence.head?) :
    (r.candidates sequence).filter p = r.commands.filter p := by
  rw [h.candidates_eq_filter hne, List.filter_filter]
  refine List.filter_congr fun c _ => ?_
  cases hc : p c with
  | false => rw [Bool.false_and]
  | true => rw [Bool.true_and, hp c hc, decide_eq_true rfl]

/-! ## The lookups -/

/-- The exact matches are the active commands bound to the sequence. -/
theorem exactMatches_eq_filter (h : r.Indexed) :
    r.exactMatches sequence context =
      r.commands.filter (fun c => c.BoundTo sequence ∧ c.isEnabled context = true) := by
  have hfilter : r.exactMatches sequence context =
      r.commands.filter (triggers sequence context) := by
    by_cases hne : sequence = []
    · -- The empty sequence has no candidates, and no command is bound to it.
      subst hne
      have hnone : ∀ c ∈ r.commands, ¬triggers [] context c = true := fun c _ hc =>
        Command.not_boundTo_nil ((triggers_eq_true_iff [] context c).mp hc).1
      rw [exactMatches, candidates, List.filter_nil, List.filter_eq_nil_iff.mpr hnone]
    · exact h.filter_candidates hne fun c hc =>
        ((triggers_eq_true_iff sequence context c).mp hc).1.firstKey?
  rw [hfilter]
  refine List.filter_congr fun c _ => ?_
  rw [Bool.eq_iff_iff, triggers_eq_true_iff, decide_eq_true_iff]

/-- The extensions of a non-empty sequence are the active commands that go on after it. -/
theorem extensions_eq_filter (h : r.Indexed) (hne : sequence ≠ []) :
    r.extensions sequence context =
      r.commands.filter (fun c => c.GoesOnAfter sequence ∧ c.isEnabled context = true) := by
  rw [extensions, h.filter_candidates hne fun c hc =>
    ((awaits_eq_true_iff sequence context c).mp hc).1.firstKey? hne]
  refine List.filter_congr fun c _ => ?_
  rw [Bool.eq_iff_iff, awaits_eq_true_iff, decide_eq_true_iff]

/-- The conflicts of a keybinding are the commands that collide with it. -/
theorem conflicts_eq_filter (h : r.Indexed) (keys : Keybinding) :
    r.conflicts keys = r.commands.filter (fun c => c.CollidesWith keys) := by
  rw [conflicts, h.filter_candidates keys.nonempty fun c hc =>
    ((conflicts_filter_iff keys c).mp hc).firstKey?]
  refine List.filter_congr fun c _ => ?_
  rw [Bool.eq_iff_iff, conflicts_filter_iff, decide_eq_true_iff]

/-- The first match is the active command bound to the sequence before which none is registered. -/
theorem firstExact?_eq_some_iff (h : r.Indexed) {c : Command} :
    r.firstExact? sequence context = some c ↔
      c ∈ r.commands ∧ c.BoundTo sequence ∧ c.isEnabled context = true ∧
        ∀ d, r.Before d c → d.isEnabled context = true → ¬d.BoundTo sequence := by
  rw [firstExact?_eq_head?, h.exactMatches_eq_filter, List.head?_filter,
    find?_eq_some_iff_of_nodup h.nodup_commands, decide_eq_true_iff]
  constructor
  · rintro ⟨hmem, ⟨hbound, henabled⟩, hfirst⟩
    refine ⟨hmem, hbound, henabled, fun d hd hde hdb => hfirst d hd ?_⟩
    exact decide_eq_true ⟨hdb, hde⟩
  · rintro ⟨hmem, hbound, henabled, hfirst⟩
    refine ⟨hmem, ⟨hbound, henabled⟩, fun d hd hde => ?_⟩
    obtain ⟨hdb, hde⟩ := of_decide_eq_true hde
    exact hfirst d hd hde hdb

/-- There is no first match if no active command is bound to the sequence. -/
theorem firstExact?_eq_none_iff (h : r.Indexed) :
    r.firstExact? sequence context = none ↔
      ∀ c ∈ r.commands, c.isEnabled context = true → ¬c.BoundTo sequence := by
  rw [firstExact?_eq_head?, h.exactMatches_eq_filter, List.head?_filter, List.find?_eq_none]
  refine forall₂_congr fun c _ => ?_
  rw [decide_eq_true_iff, not_and, imp_not_comm]

/-- A non-empty sequence has an extension if some active command goes on after it. -/
theorem hasExtension_iff_exists (h : r.Indexed) (hne : sequence ≠ []) :
    r.hasExtension sequence context = true ↔
      ∃ c ∈ r.commands, c.GoesOnAfter sequence ∧ c.isEnabled context = true := by
  rw [hasExtension_iff, h.extensions_eq_filter hne, ne_eq, List.filter_eq_nil_iff]
  simp only [decide_eq_true_eq, not_forall, not_not, exists_prop]

end Indexed

/-- In a reachable registry names and positions belong together one to one, every position in the
index of first keystrokes is that of a command, and each lookup gives what a scan of the commands
gives: the exact matches, the extensions and the conflicts in the order of registration and none
twice, the first match and whether there is an extension. -/
theorem Reachable.lookup_eq_scan (h : r.Reachable) :
    (r.ids.Nodup ∧
      (∀ (id : String) (i : Nat), r.positions[id]? = some i ↔ r.ids[i]? = some id) ∧
      ∀ (k : Keystroke) (is : List Nat), r.byFirst[k]? = some is →
        ∀ i ∈ is, i < r.commands.length) ∧
    ∀ context : Context,
      (∀ sequence,
        r.exactMatches sequence context =
            r.commands.filter (fun c => c.BoundTo sequence ∧ c.isEnabled context = true) ∧
          (r.exactMatches sequence context).Nodup) ∧
      (∀ sequence, sequence ≠ [] →
        r.extensions sequence context =
            r.commands.filter (fun c => c.GoesOnAfter sequence ∧ c.isEnabled context = true) ∧
          (r.extensions sequence context).Nodup) ∧
      (∀ keys,
        r.conflicts keys = r.commands.filter (fun c => c.CollidesWith keys) ∧
          (r.conflicts keys).Nodup) ∧
      (∀ sequence, r.firstExact? sequence context = (r.exactMatches sequence context).head?) ∧
      ∀ sequence,
        r.hasExtension sequence context = true ↔ r.extensions sequence context ≠ [] := by
  have hindexed := h.indexed
  have hnodup := hindexed.nodup_commands
  refine ⟨⟨hindexed.nodup_ids, hindexed.positions, fun k is his i hi => ?_⟩,
    fun context => ⟨fun sequence => ?_, fun sequence hne => ?_, fun keys => ?_,
      fun sequence => ?_, fun sequence => ?_⟩⟩
  · exact hindexed.lt_length_of_mem_byFirst his hi
  · rw [hindexed.exactMatches_eq_filter]
    exact ⟨rfl, hnodup.filter _⟩
  · rw [hindexed.extensions_eq_filter hne]
    exact ⟨rfl, hnodup.filter _⟩
  · rw [hindexed.conflicts_eq_filter]
    exact ⟨rfl, hnodup.filter _⟩
  · exact firstExact?_eq_head? r sequence context
  · exact hasExtension_iff r sequence context

/-- Two commands of one keystroke. -/
def rivals : List Command :=
  [.ofKeys "save" (.ofKeystroke ⟨"s", { ctrl := true }⟩),
    .ofKeys "store" (.ofKeystroke ⟨"s", { ctrl := true }⟩)]

/-- When the first of two rivals is removed, the second moves to its position and is found there. -/
theorem lookup_of_rival :
    ((ofList rivals).edit (.unregister "save")).Reachable ∧
      (((ofList rivals).edit (.unregister "save")).exactMatches
        [⟨"s", { ctrl := true }⟩] .empty).map Command.id = ["store"] := by
  have hreach : ((ofList rivals).edit (.unregister "save")).Reachable :=
    (reachable_ofList rivals).edit (.unregister "save")
  have hcommands : ((ofList rivals).edit (.unregister "save")).commands = rivals.tail := by
    simp [ofList, rivals, Command.ofKeys, edit, Edit.perform?, unregister?, register, empty,
      Std.HashMap.getElem_insert]
  refine ⟨hreach, ?_⟩
  rw [(hreach.lookup_eq_scan.2 .empty).1 _ |>.1, hcommands]
  decide

end Registry

end KeyChord
