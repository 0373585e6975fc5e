import KeyChord.Keymap.Basic
import KeyChord.Proofs.Lists
import KeyChord.Proofs.Registry.Edits
import Mathlib.Data.List.DropRight

/-!
# What wins when keymaps are laid over one another

Laying keymaps over a registry is one long list of edits: each keymap registers its commands and
then applies its overrides. What becomes of a command is decided by its last registration and by
the overrides after it, and there by the last one that says something about the keybinding and the
last one that says something about the when-clause.

The module introduces:

* `keymap.edits`: the edits that a keymap stands for.
* `lastRegistered? name edits`: the command as it has last been registered.
* `overridesSince name edits`: the overrides of the command after its last registration.
* `c.overridden overrides`: the command `c` with what the overrides say last.

The main statement is `foldl_merge_eq`.
-/

namespace KeyChord

/-- The edits that a keymap stands for. -/
def Keymap.edits (keymap : Keymap) : List Registry.Edit :=
  keymap.commands.map .register ++ keymap.overrides.map .override

/-- The command with what the overrides say last about its keybinding, and with the last
when-clause among them. Whoever has no keybinding left has been unbound. -/
def Command.overridden (c : Command) (overrides : List Override) : Command :=
  let choice := (overrides.filterMap (·.keys.choice?)).getLast?
  let clause := (overrides.filterMap (·.clause)).getLast?
  { c with
    customKeys := choice.getD c.customKeys
    unbound := (choice.map Option.isNone).getD c.unbound
    customWhen := clause.or c.customWhen }

namespace Registry

/-- The command that the edit registers. -/
def Edit.registered? : Edit → Option Command
  | register c => some c
  | _ => none

/-- The override that the edit applies. -/
def Edit.override? : Edit → Option Override
  | override o => some o
  | _ => none

/-- The edit registers a command of the name. -/
def Edit.registers (name : String) (e : Edit) : Bool :=
  e.registered?.any (·.id = name)

/-- The command of the name as it has last been registered. -/
def lastRegistered? (name : String) (edits : List Edit) : Option Command :=
  ((edits.filterMap Edit.registered?).filter (·.id = name)).getLast?

/-- The overrides of the name after its last registration. -/
def overridesSince (name : String) (edits : List Edit) : List Override :=
  ((edits.rtakeWhile (!·.registers name)).filterMap Edit.override?).filter (·.command = name)

end Registry

/-! ## Overrides of one command -/

namespace Command

variable (c : Command) (o : Override) (overrides : List Override)

theorem overridden_nil : c.overridden [] = c := rfl

/-- A further override is applied on top of the others. -/
theorem overridden_concat : c.overridden (overrides ++ [o]) = o.apply (c.overridden overrides) := by
  -- What the last override leaves open has been settled by the others.
  rw [o.apply_eq]
  cases hkeys : o.keys.choice? <;> cases hclause : o.clause <;>
    simp [overridden, List.filterMap_append, hkeys, hclause]

/-- Overrides that have been applied change nothing when they are applied again. -/
theorem overridden_overridden : (c.overridden overrides).overridden overrides =
    c.overridden overrides := by
  unfold overridden
  cases (overrides.filterMap (·.keys.choice?)).getLast? <;>
    cases (overrides.filterMap (·.clause)).getLast? <;> rfl

end Command

/-- An override says the same when it is applied again. -/
theorem Override.apply_apply (o : Override) (c : Command) : o.apply (o.apply c) = o.apply c := by
  have hsingle : ∀ c : Command, o.apply c = c.overridden [o] := fun c =>
    (c.overridden_concat o []).symm
  rw [hsingle, hsingle, Command.overridden_overridden]

namespace Registry

variable {r : Registry} {edits : List Edit} {e : Edit} {name : String}

/-! ## One more edit -/

theorem lastRegistered?_concat_register (c : Command) :
    lastRegistered? name (edits ++ [.register c]) =
      if c.id = name then some c else lastRegistered? name edits := by
  by_cases hc : c.id = name <;> simp [lastRegistered?, Edit.registered?, List.filterMap_append, hc]

theorem lastRegistered?_concat_override (o : Override) :
    lastRegistered? name (edits ++ [.override o]) = lastRegistered? name edits := by
  simp [lastRegistered?, Edit.registered?, List.filterMap_append, List.filterMap_cons]

theorem overridesSince_concat_register (c : Command) :
    overridesSince name (edits ++ [.register c]) =
      if c.id = name then [] else overridesSince name edits := by
  by_cases hc : c.id = name <;>
    simp [overridesSince, Edit.registers, Edit.registered?, Edit.override?, hc]

theorem overridesSince_concat_override (o : Override) :
    overridesSince name (edits ++ [.override o]) =
      overridesSince name edits ++ if o.command = name then [o] else [] := by
  by_cases ho : o.command = name <;>
    simp [overridesSince, Edit.registers, Edit.registered?, Edit.override?, ho]

/-! ## Registrations and overrides in a row -/

/-- The edit registers a command or applies an override, as those of keymaps do. -/
def Edit.IsLayered (e : Edit) : Prop :=
  (∃ c, e = .register c) ∨ ∃ o, e = .override o

/-- The record of a name is that of its last registration, with the overrides after it. -/
theorem Indexed.get?_editAll (h : r.Indexed) (hedits : ∀ e ∈ edits, e.IsLayered) (name : String) :
    (r.editAll edits).get? name =
      ((lastRegistered? name edits).or (r.get? name)).map
        (·.overridden (overridesSince name edits)) := by
  -- The last edit decides what it is about, and leaves the rest to those before it.
  induction edits using List.reverseRecOn with
  | nil =>
    change r.get? name = (Option.or none (r.get? name)).map (·.overridden [])
    simp [Command.overridden_nil]
  | append_singleton edits e ih =>
    have ih := ih fun e he => hedits e (List.mem_append_left _ he)
    rw [editAll_concat, (h.editAll edits).get?_edit, ih]
    rcases hedits e (by simp) with ⟨c, rfl⟩ | ⟨o, rfl⟩
    · rw [lastRegistered?_concat_register, overridesSince_concat_register]
      change (if c.id = name then some c else _) = _
      by_cases hc : c.id = name <;> simp [hc, Command.overridden_nil]
    · rw [lastRegistered?_concat_override, overridesSince_concat_override]
      change (if o.command = name then Option.map (Edit.override o).change _ else _) = _
      by_cases ho : o.command = name <;>
        simp [ho, Edit.change_override, Command.overridden_concat, Function.comp_def]

/-- The names are those from before, and behind them those that have been registered since, in the
order of their first registration. -/
theorem Indexed.ids_editAll (h : r.Indexed) (hedits : ∀ e ∈ edits, e.IsLayered) :
    (r.editAll edits).ids =
      (r.ids ++ (edits.filterMap Edit.registered?).map Command.id).eraseDups := by
  -- Only a registration can add a name, and it puts a new one behind the others.
  induction edits using List.reverseRecOn with
  | nil =>
    change r.ids = (r.ids ++ []).eraseDups
    rw [List.append_nil, eraseDups_of_nodup h.nodup_ids]
  | append_singleton edits e ih =>
    have ih := ih fun e he => hedits e (List.mem_append_left _ he)
    rw [editAll_concat, (h.editAll edits).ids_edit, ih]
    rcases hedits e (by simp) with ⟨c, rfl⟩ | ⟨o, rfl⟩
    · simp only [Edit.order, Edit.registered?, List.filterMap_append, List.filterMap_cons,
        List.filterMap_nil, List.map_append, List.map_cons, List.map_nil, ← List.append_assoc,
        eraseDups_concat, List.mem_eraseDups]
    · simp [Edit.order, Edit.registered?, List.filterMap_append, List.filterMap_cons]

/-! ## Layers -/

theorem editAll_append (r : Registry) (first second : List Edit) :
    r.editAll (first ++ second) = (r.editAll first).editAll second :=
  List.foldl_append

/-- Laying a keymap over a registry is making its edits. -/
theorem merge_eq_editAll (r : Registry) (keymap : Keymap) :
    r.merge keymap = r.editAll keymap.edits := by
  have hregister : keymap.commands.foldl register r =
      r.editAll (keymap.commands.map .register) := by
    rw [editAll, List.foldl_map]
    rfl
  rw [merge, overrideAll_eq_editAll, hregister, Keymap.edits, editAll_append]

theorem foldl_merge_eq_editAll (r : Registry) (layers : List Keymap) :
    layers.foldl merge r = r.editAll (layers.flatMap Keymap.edits) := by
  induction layers generalizing r with
  | nil => rfl
  | cons keymap layers ih =>
    rw [List.foldl_cons, ih, merge_eq_editAll, List.flatMap_cons, editAll_append]

theorem isLayered_of_mem_edits {layers : List Keymap} :
    ∀ e ∈ layers.flatMap Keymap.edits, e.IsLayered := by
  intro e he
  obtain ⟨keymap, -, he⟩ := List.mem_flatMap.mp he
  rcases List.mem_append.mp he with he | he
  · obtain ⟨c, -, rfl⟩ := List.mem_map.mp he
    exact Or.inl ⟨c, rfl⟩
  · obtain ⟨o, -, rfl⟩ := List.mem_map.mp he
    exact Or.inr ⟨o, rfl⟩

/-- What the layers register are the commands of the keymaps. -/
theorem filterMap_registered?_edits (layers : List Keymap) :
    (layers.flatMap Keymap.edits).filterMap Edit.registered? = layers.flatMap (·.commands) := by
  rw [List.filterMap_flatMap]
  refine List.flatMap_congr fun keymap _ => ?_
  have hcommands : (keymap.commands.map Edit.register).filterMap Edit.registered? =
      keymap.commands := by
    rw [List.filterMap_map]
    exact List.filterMap_some
  have hoverrides : (keymap.overrides.map Edit.override).filterMap Edit.registered? = [] := by
    rw [List.filterMap_map]
    exact List.filterMap_none keymap.overrides
  rw [Keymap.edits, List.filterMap_append, hcommands, hoverrides, List.append_nil]

theorem register_mem_edits_iff {layers : List Keymap} {c : Command} :
    .register c ∈ layers.flatMap Keymap.edits ↔ ∃ keymap ∈ layers, c ∈ keymap.commands := by
  simp [Keymap.edits]

theorem Indexed.ids_foldl_merge (h : r.Indexed) (layers : List Keymap) :
    (layers.foldl merge r).ids =
      r.ids ++ ((layers.flatMap (·.commands.map Command.id)).filter (· ∉ r.ids)).eraseDups := by
  rw [foldl_merge_eq_editAll, h.ids_editAll isLayered_of_mem_edits, filterMap_registered?_edits,
    List.map_flatMap, List.eraseDups_append, eraseDups_of_nodup h.nodup_ids]
  -- What is left of the new names is written once as a difference and once as a filter.
  simp [List.removeAll]

theorem Indexed.get?_foldl_merge (h : r.Indexed) (layers : List Keymap) (name : String) :
    (layers.foldl merge r).get? name =
      ((lastRegistered? name (layers.flatMap Keymap.edits)).or (r.get? name)).map
        (·.overridden (overridesSince name (layers.flatMap Keymap.edits))) := by
  rw [foldl_merge_eq_editAll]
  exact h.get?_editAll isLayered_of_mem_edits name

theorem Indexed.foldl_merge (h : r.Indexed) (layers : List Keymap) :
    (layers.foldl merge r).Indexed := by
  rw [foldl_merge_eq_editAll]
  exact h.editAll _

/-- Layers that have been laid over a registry change nothing when they are laid over it again. -/
theorem Indexed.foldl_merge_idem (h : r.Indexed) (layers : List Keymap) :
    layers.foldl merge (layers.foldl merge r) = layers.foldl merge r := by
  -- The second time no name is new, so that the positions stay.
  have hknown : ∀ c, .register c ∈ layers.flatMap Keymap.edits →
      c.id ∈ (layers.foldl merge r).ids := by
    intro c hc
    obtain ⟨keymap, hkeymap, hc⟩ := register_mem_edits_iff.mp hc
    rw [h.ids_foldl_merge]
    by_cases hold : c.id ∈ r.ids
    · exact List.mem_append_left _ hold
    · refine List.mem_append_right _ ?_
      simp only [List.mem_eraseDups, List.mem_filter, List.mem_flatMap, List.mem_map]
      exact ⟨⟨keymap, hkeymap, c, hc, rfl⟩, by simpa using hold⟩
  rw [foldl_merge_eq_editAll] at hknown
  rw [foldl_merge_eq_editAll, foldl_merge_eq_editAll]
  have hmerged := h.editAll (layers.flatMap Keymap.edits)
  refine (hmerged.editAll _).eq_of_get?_eq hmerged ?_ fun name => ?_
  · refine hmerged.positions_editAll (fun name hname => ?_) hknown
    rcases isLayered_of_mem_edits _ hname with ⟨c, hc⟩ | ⟨o, ho⟩
    · cases hc
    · cases ho
  · rw [hmerged.get?_editAll isLayered_of_mem_edits, h.get?_editAll isLayered_of_mem_edits]
    -- A command that the layers register starts afresh; on any other the overrides fall twice.
    cases lastRegistered? name (layers.flatMap Keymap.edits) with
    | some c => simp
    | none => simp [Function.comp_def, Command.overridden_overridden]

/-- Let `layers` be laid over a registry, and read them as one list of edits. A command is
registered afterwards exactly if it was before or a layer registers it. Its record is then that of
its last registration, or the one from before if there is none, with what the overrides after this
registration say last about its keybinding and its when-clause; earlier overrides count for nothing,
and nothing else is touched. The commands from before keep their order, and new ones follow in the
order of their first registration. So overrides of different commands can be applied in either
order, and the same override or the same layers again change nothing. -/
theorem foldl_merge_eq (hr : r.Reachable) (layers : List Keymap) :
    (∀ name, name ∈ (layers.foldl merge r).ids ↔
      name ∈ r.ids ∨ ∃ keymap ∈ layers, ∃ c ∈ keymap.commands, c.id = name) ∧
    (∀ name, (layers.foldl merge r).get? name =
      ((lastRegistered? name (layers.flatMap Keymap.edits)).or (r.get? name)).map
        (·.overridden (overridesSince name (layers.flatMap Keymap.edits)))) ∧
    (layers.foldl merge r).ids =
      r.ids ++ ((layers.flatMap (·.commands.map Command.id)).filter (· ∉ r.ids)).eraseDups ∧
    (∀ o o' : Override, o.command ≠ o'.command →
      ((layers.foldl merge r).edit (.override o)).edit (.override o') =
        ((layers.foldl merge r).edit (.override o')).edit (.override o)) ∧
    (∀ o : Override, ((layers.foldl merge r).edit (.override o)).edit (.override o) =
      (layers.foldl merge r).edit (.override o)) ∧
    layers.foldl merge (layers.foldl merge r) = layers.foldl merge r := by
  have h := hr.indexed
  have hmerged := h.foldl_merge layers
  refine ⟨fun name => ?_, h.get?_foldl_merge layers, h.ids_foldl_merge layers, fun o o' hne => ?_,
    fun o => ?_, h.foldl_merge_idem layers⟩
  · rw [h.ids_foldl_merge]
    by_cases hold : name ∈ r.ids <;> simp [hold]
  · exact hmerged.edit_comm trivial trivial hne
  · refine hmerged.edit_idem trivial fun c => ?_
    simp only [Edit.change_override, o.apply_apply]

/-- A command that saves, as an application might register it. -/
def save : Command where
  id := "save"
  label := "Save"
  category := "File"
  defaultKeys := some (.ofKeystroke ⟨"s", { ctrl := true }⟩)

/-- A layer that takes the keybinding of a command away, one that registers the command anew, and
one that changes first its keybinding and then its when-clause. -/
def saveLayers : List Keymap :=
  [{ overrides := [⟨"save", .unbind, none⟩] },
    { commands := [{ save with label := "Save file" }] },
    { overrides := [⟨"save", .set (.ofKeystroke ⟨"s", { alt := true }⟩), none⟩,
        ⟨"save", .inherit, some (.ofSource "editorFocus")⟩] }]

/-- The new registration takes back that the command is unbound, and what the overrides after it
say about the keybinding and about the when-clause both count. -/
theorem get?_saveLayers :
    (saveLayers.foldl merge (.ofList [save])).get? "save" =
      some { save with
        label := "Save file"
        customKeys := some (.ofKeystroke ⟨"s", { alt := true }⟩)
        customWhen := some (.ofSource "editorFocus") } := by
  obtain ⟨-, hget, -⟩ := foldl_merge_eq (reachable_ofList [save]) saveLayers
  rw [hget]
  have hlast : lastRegistered? "save" (saveLayers.flatMap Keymap.edits) =
      some { save with label := "Save file" } := rfl
  have hsince : overridesSince "save" (saveLayers.flatMap Keymap.edits) =
      [⟨"save", .set (.ofKeystroke ⟨"s", { alt := true }⟩), none⟩,
        ⟨"save", .inherit, some (.ofSource "editorFocus")⟩] := rfl
  rw [hlast, hsince]
  rfl

end Registry

end KeyChord
