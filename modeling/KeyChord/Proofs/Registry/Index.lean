import KeyChord.Registry.Edit
import Mathlib.Data.List.Induction
import Mathlib.Data.List.Nodup

/-!
# The indices of reachable registries

Two indices stand beside the commands of a registry, and each operation keeps them up in its own
way: a registration extends the positions, a removal renumbers them, and every change rebuilds the
index of first keystrokes.

The module introduces:

* `Registry.Reachable`: the registries that come from the empty one by registering, removing and
  changing commands.
* `Registry.PositionsOf positions ids`: `positions` holds exactly the names `ids`, each with its
  position.
* `Registry.Indexed`: both indices agree with the commands.

Every reachable registry is indexed (`Reachable.indexed`), so its names are pairwise distinct
(`Indexed.nodup_ids`) and a name leads to its command and to no other (`Indexed.get?_eq_some_iff`).
-/

namespace KeyChord.Registry

/-- The registries that come from the empty one by edits and lists of overrides. -/
inductive Reachable : Registry → Prop
  | empty : Reachable empty
  | edit {r : Registry} (edit : Edit) : Reachable r → Reachable (r.edit edit)
  | overrideAll {r : Registry} (overrides : List Override) :
      Reachable r → Reachable (r.overrideAll overrides).2

/-- `positions` holds exactly the names `ids`, each with its position. -/
def PositionsOf (positions : Std.HashMap String Nat) (ids : List String) : Prop :=
  ∀ (id : String) (i : Nat), positions[id]? = some i ↔ ids[i]? = some id

/-- Both indices of the registry agree with its commands. -/
structure Indexed (r : Registry) : Prop where
  /-- Each command is kept with its position. -/
  positions : PositionsOf r.positions r.ids
  /-- The index of first keystrokes is that of the commands as they are now. -/
  byFirst : r.byFirst = indexFirst r.commands

/-! ## Positions -/

namespace PositionsOf

variable {positions : Std.HashMap String Nat} {ids : List String}

/-- Names that have been given positions are pairwise distinct. -/
theorem nodup (h : PositionsOf positions ids) : ids.Nodup := by
  rw [List.nodup_iff_injective_getElem]
  intro i j hij
  have hi := (h ids[i] i).mpr (List.getElem?_eq_getElem i.isLt)
  have hj := (h ids[j] j).mpr (List.getElem?_eq_getElem j.isLt)
  rw [show ids[i] = ids[j] from hij] at hi
  exact Fin.ext (Option.some.inj (hi.symm.trans hj))

/-- A name without a position is not among the names. -/
theorem not_mem (h : PositionsOf positions ids) {id : String} (hnone : positions[id]? = none) :
    id ∉ ids := by
  intro hmem
  obtain ⟨i, hi⟩ := List.mem_iff_getElem?.mp hmem
  rw [(h id i).mpr hi] at hnone
  cases hnone

/-- No names have no positions. -/
theorem nil : PositionsOf ∅ [] := by
  intro id i
  simp

/-- A new name is put behind the others. -/
theorem concat (h : PositionsOf positions ids) {id : String} (hnew : id ∉ ids) :
    PositionsOf (positions.insert id ids.length) (ids ++ [id]) := by
  intro id' i
  rw [Std.HashMap.getElem?_insert, List.getElem?_append]
  by_cases hid : id = id'
  · -- The new name has the new position and, as it is new, no earlier one.
    subst hid
    rw [if_pos (beq_self_eq_true id)]
    by_cases hlt : i < ids.length
    · have hne : ids[i]? ≠ some id := fun hi => hnew (List.mem_of_getElem? hi)
      simp only [hlt, if_true, hne, iff_false, Option.some.injEq]
      omega
    · simp only [hlt, if_false, Option.some.injEq, List.getElem?_singleton]
      split <;> simp <;> omega
  · -- Every other name is where it was, and not at the new position.
    rw [if_neg (by simpa using hid), h id' i]
    by_cases hlt : i < ids.length
    · rw [if_pos hlt]
    · rw [if_neg hlt, List.getElem?_eq_none (Nat.le_of_not_lt hlt), List.getElem?_singleton]
      split <;> simp [hid]

end PositionsOf

/-- The positions of some commands and one more. -/
theorem indexPositions_concat (commands : List Command) (c : Command) :
    indexPositions (commands ++ [c]) = (indexPositions commands).insert c.id commands.length := by
  simp [indexPositions, List.zipIdx_append]

/-- Renumbering gives each of some commands with distinct names its position. -/
theorem positionsOf_indexPositions (commands : List Command)
    (hids : (commands.map Command.id).Nodup) :
    PositionsOf (indexPositions commands) (commands.map Command.id) := by
  -- Commands are numbered from the front, so that the last one is put behind the others.
  induction commands using List.reverseRecOn with
  | nil => exact PositionsOf.nil
  | append_singleton commands c ih =>
    rw [List.map_append, List.nodup_append] at hids
    obtain ⟨hnodup, -, hdisjoint⟩ := hids
    have hnew : c.id ∉ commands.map Command.id :=
      fun hmem => hdisjoint _ hmem _ (List.mem_singleton_self _) rfl
    have hconcat := (ih hnodup).concat hnew
    rw [List.length_map] at hconcat
    rw [indexPositions_concat, List.map_append]
    exact hconcat

/-! ## Every operation keeps the indices up -/

/-- The empty registry is indexed. -/
theorem indexed_empty : empty.Indexed where
  positions := PositionsOf.nil
  byFirst := rfl

namespace Indexed

variable {r : Registry}

/-- The names of an indexed registry are pairwise distinct. -/
theorem nodup_ids (h : r.Indexed) : r.ids.Nodup :=
  h.positions.nodup

/-- No command of an indexed registry is listed twice. -/
theorem nodup_commands (h : r.Indexed) : r.commands.Nodup :=
  h.nodup_ids.of_map

/-- Commands of one name are one command. -/
theorem eq_of_id_eq (h : r.Indexed) {c d : Command} (hc : c ∈ r.commands) (hd : d ∈ r.commands)
    (hid : c.id = d.id) : c = d :=
  List.inj_on_of_nodup_map h.nodup_ids hc hd hid

/-- The position of a name is that of the command of this name. -/
theorem positions_eq_some_iff (h : r.Indexed) (id : String) (i : Nat) :
    r.positions[id]? = some i ↔ ∃ c, r.commands[i]? = some c ∧ c.id = id := by
  rw [h.positions id i, ids, List.getElem?_map, Option.map_eq_some_iff]

/-- A name leads to the command of this name. -/
theorem get?_eq_some_iff (h : r.Indexed) (id : String) (c : Command) :
    r.get? id = some c ↔ c ∈ r.commands ∧ c.id = id := by
  rw [get?, Option.bind_eq_some_iff]
  constructor
  · rintro ⟨i, hi, hc⟩
    obtain ⟨d, hd, hid⟩ := (h.positions_eq_some_iff id i).mp hi
    rw [hc] at hd
    cases hd
    exact ⟨List.mem_of_getElem? hc, hid⟩
  · rintro ⟨hmem, hid⟩
    obtain ⟨i, hi⟩ := List.mem_iff_getElem?.mp hmem
    exact ⟨i, (h.positions_eq_some_iff id i).mpr ⟨c, hi, hid⟩, hi⟩

/-- Registering a command keeps the indices up. -/
theorem register (h : r.Indexed) (c : Command) : (r.register c).Indexed := by
  unfold Registry.register
  split
  next i hi =>
    -- The names stay what they are when a command is replaced by one of the same name.
    have hids : (r.commands.set i c).map Command.id = r.ids := by
      obtain ⟨hlt, hget⟩ := List.getElem?_eq_some_iff.mp ((h.positions c.id i).mp hi)
      rw [List.map_set, ← hget]
      exact List.set_getElem_self hlt
    exact ⟨by rw [ids, hids]; exact h.positions, rfl⟩
  next hnone =>
    refine ⟨?_, rfl⟩
    have hconcat := h.positions.concat (h.positions.not_mem hnone)
    rw [ids, List.length_map] at hconcat
    rw [ids, List.map_append]
    exact hconcat

/-- Removing a command keeps the indices up. -/
theorem unregister? (h : r.Indexed) {id : String} {removed : Command} {r' : Registry}
    (hr' : r.unregister? id = some (removed, r')) : r'.Indexed := by
  simp only [Registry.unregister?, bind, Option.bind_eq_some_iff, Option.some.injEq,
    Prod.mk.injEq] at hr'
  obtain ⟨i, -, c, -, -, rfl⟩ := hr'
  -- Whatever the positions were before, those of the commands that are left are counted anew.
  refine ⟨positionsOf_indexPositions _ ?_, rfl⟩
  exact h.nodup_ids.sublist ((List.eraseIdx_sublist r.commands i).map Command.id)

/-- A registered command can be removed, and takes no other command with it. -/
theorem exists_unregister? (h : r.Indexed) {c : Command} (hc : c ∈ r.commands) :
    ∃ r', r.unregister? c.id = some (c, r') ∧ r'.commands = r.commands.erase c := by
  obtain ⟨i, hi, rfl⟩ := List.getElem_of_mem hc
  have hget := List.getElem?_eq_getElem hi
  have hposition : r.positions[r.commands[i].id]? = some i :=
    (h.positions_eq_some_iff _ i).mpr ⟨_, hget, rfl⟩
  rw [Registry.unregister?, hposition, Option.bind_eq_bind, Option.bind_some, hget]
  exact ⟨_, rfl, (h.nodup_commands.erase_getElem i hi).symm⟩

/-- Changing a command without renaming it keeps the indices up. -/
theorem modify? (h : r.Indexed) {id : String} {change : Command → Command}
    (hchange : ∀ c, (change c).id = c.id) {r' : Registry}
    (hr' : r.modify? id change = some r') : r'.Indexed := by
  simp only [Registry.modify?, bind, Option.bind_eq_some_iff, Option.some.injEq] at hr'
  obtain ⟨i, -, rfl⟩ := hr'
  -- The positions stay as they are, because the names do.
  have hids : (r.commands.modify i change).map Command.id = r.ids := by
    refine List.ext_getElem? fun j => ?_
    rw [ids, List.getElem?_map, List.getElem?_map, List.getElem?_modify, Option.map_eq_map,
      Option.map_map]
    refine congrArg (Option.map · r.commands[j]?) (funext fun c => ?_)
    by_cases hij : i = j <;> simp [hij, hchange]
  exact ⟨by rw [ids, hids]; exact h.positions, rfl⟩

/-- Every edit that succeeds keeps the indices up. -/
theorem perform? (h : r.Indexed) {edit : Edit} {r' : Registry}
    (hr' : edit.perform? r = some r') : r'.Indexed := by
  cases edit with
  | register c =>
    cases hr'
    exact h.register c
  | unregister id =>
    obtain ⟨⟨removed, r''⟩, hremoved, rfl⟩ := Option.map_eq_some_iff.mp hr'
    exact h.unregister? hremoved
  | setKeys id keys => exact h.modify? (Command.id_withKeys keys) hr'
  | setWhen id clause => exact h.modify? (Command.id_withWhen clause) hr'
  | unbind id => exact h.modify? Command.id_withoutKeys hr'
  | reset id => exact h.modify? Command.id_reset hr'
  | override o => exact h.modify? o.id_apply hr'

/-- Every edit keeps the indices up. -/
theorem edit (h : r.Indexed) (edit : Edit) : (r.edit edit).Indexed := by
  rw [Registry.edit]
  cases hr' : edit.perform? r with
  | none => exact h
  | some r' => exact h.perform? hr'

/-- Some edits keep the indices up. -/
theorem editAll (h : r.Indexed) (edits : List Edit) : (r.editAll edits).Indexed := by
  induction edits generalizing r with
  | nil => exact h
  | cons e edits ih => exact ih (h.edit e)

end Indexed

/-- Folding a step that edits with an override, whatever it counts, is editing with each in turn. -/
theorem snd_foldl_eq_editAll {step : Nat × Registry → Override → Nat × Registry}
    (hstep : ∀ p o, (step p o).2 = p.2.edit (.override o)) (overrides : List Override)
    (p : Nat × Registry) :
    (overrides.foldl step p).2 = p.2.editAll (overrides.map .override) := by
  induction overrides generalizing p with
  | nil => rfl
  | cons o overrides ih => rw [List.foldl_cons, ih, hstep, List.map_cons, editAll_cons]

/-- Applying overrides is editing with each in turn. -/
theorem overrideAll_eq_editAll (r : Registry) (overrides : List Override) :
    (r.overrideAll overrides).2 = r.editAll (overrides.map .override) := by
  refine snd_foldl_eq_editAll (fun p o => ?_) overrides (0, r)
  rw [edit_override]
  cases ho : p.2.override? o with
  | none => simp only [ho, Option.getD_none]
  | some r' => simp only [ho, Option.getD_some]

namespace Reachable

variable {r : Registry}

/-- Reachable registries are indexed. -/
theorem indexed (h : r.Reachable) : r.Indexed := by
  induction h with
  | empty => exact indexed_empty
  | edit e _ ih => exact ih.edit e
  | overrideAll overrides _ ih =>
    rw [overrideAll_eq_editAll]
    exact ih.editAll _

/-- Registering a command leads to a reachable registry. -/
theorem register (h : r.Reachable) (c : Command) : (r.register c).Reachable :=
  h.edit (.register c)

/-- Some edits lead to a reachable registry. -/
theorem editAll (h : r.Reachable) (edits : List Edit) : (r.editAll edits).Reachable := by
  induction edits generalizing r with
  | nil => exact h
  | cons e edits ih => exact ih (h.edit e)

end Reachable

/-- Registering new commands with distinct names puts them behind the others. -/
theorem commands_foldl_register {r : Registry} (h : r.Indexed) {commands : List Command}
    (hids : (r.ids ++ commands.map Command.id).Nodup) :
    (commands.foldl Registry.register r).commands = r.commands ++ commands := by
  induction commands generalizing r with
  | nil => simp
  | cons c commands ih =>
    have hnew : r.positions[c.id]? = none := by
      rw [Option.eq_none_iff_forall_ne_some]
      intro i hi
      have hmem : c.id ∈ r.ids := List.mem_of_getElem? ((h.positions c.id i).mp hi)
      exact (List.nodup_append.mp hids).2.2 _ hmem _ (by simp) rfl
    have hcommands : (r.register c).commands = r.commands ++ [c] := by
      rw [Registry.register, hnew]
    have hids' : ((r.register c).ids ++ commands.map Command.id).Nodup := by
      rw [ids, hcommands, List.map_append, List.append_assoc]
      exact hids
    rw [List.foldl_cons, ih (h.register c) hids', hcommands, List.append_assoc]
    rfl

/-- The registry of commands with distinct names holds these commands in their order. -/
theorem commands_ofList {commands : List Command} (hids : (commands.map Command.id).Nodup) :
    (ofList commands).commands = commands :=
  commands_foldl_register indexed_empty hids

/-- The registry of some commands is reachable. -/
theorem reachable_ofList (commands : List Command) : (ofList commands).Reachable := by
  have hfold : ∀ r : Registry, r.Reachable → (commands.foldl Registry.register r).Reachable := by
    induction commands with
    | nil => exact fun _ h => h
    | cons c commands ih => exact fun r h => ih _ (h.register c)
  exact hfold _ .empty

end KeyChord.Registry
