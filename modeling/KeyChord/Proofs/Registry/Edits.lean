import KeyChord.Proofs.Registry.Index

/-!
# What one edit does

The operations find their command by its position and go on from there. In an indexed registry this
comes to what one would do to a plain list of commands with distinct names.

The module introduces, for an edit `e`:

* `e.id`: the name of the command that it is about.
* `e.change c`: what it makes of the command `c` of this name, field by field.
* `e.record? record`: the record of this name afterwards, if `record` is the one before.
* `e.order ids`: the names afterwards, if `ids` are those before.

The statements are `Indexed.get?_edit` and `Indexed.ids_edit`, by which these describe every edit,
and `Indexed.edit_eq_self`, by which an edit of an unknown command changes nothing at all. Two
indexed registries with the same positions and the same records are equal
(`Indexed.eq_of_get?_eq`).
-/

namespace KeyChord

/-- The keybinding that the user has after the change, unless the change says nothing about it. -/
def KeyChange.choice? : KeyChange → Option (Option Keybinding)
  | inherit => none
  | unbind => some none
  | set keys => some (some keys)

/-- An override sets the keybinding to what it says, if it says anything, and the when-clause
likewise. Whoever has no keybinding left has been unbound. -/
theorem Override.apply_eq (o : Override) (c : Command) :
    o.apply c = { c with
      customKeys := o.keys.choice?.getD c.customKeys
      unbound := (o.keys.choice?.map Option.isNone).getD c.unbound
      customWhen := o.clause.or c.customWhen } := by
  obtain ⟨command, keys, clause⟩ := o
  cases keys <;> cases clause <;> rfl

namespace Registry

namespace Edit

/-- The name of the command that the edit is about. -/
def id : Edit → String
  | register c => c.id
  | unregister name => name
  | setKeys name _ => name
  | setWhen name _ => name
  | unbind name => name
  | reset name => name
  | override o => o.command

/-- What the edit makes of a command that stays registered: the fields that it sets, and to what. -/
def change : Edit → Command → Command
  | register c, _ => c
  | unregister _, c => c
  | setKeys _ keys, c => { c with customKeys := keys, unbound := false }
  | setWhen _ clause, c => { c with customWhen := clause }
  | unbind _, c => { c with customKeys := none, unbound := true }
  | reset _, c => { c with customKeys := none, customWhen := none, unbound := false }
  | override o, c => { c with
      customKeys := o.keys.choice?.getD c.customKeys
      unbound := (o.keys.choice?.map Option.isNone).getD c.unbound
      customWhen := o.clause.or c.customWhen }

/-- The edit changes a command that is registered; it neither registers nor removes one. -/
def IsChange : Edit → Prop
  | register _ => False
  | unregister _ => False
  | _ => True

instance : DecidablePred IsChange
  | register _ | unregister _ => inferInstanceAs (Decidable False)
  | setKeys .. | setWhen .. | unbind _ | reset _ | override _ => inferInstanceAs (Decidable True)

/-- The record of the command that the edit is about, after the edit. -/
def record? : Edit → Option Command → Option Command
  | register c, _ => some c
  | unregister _, _ => none
  | e, record => record.map e.change

/-- The names of the commands after the edit. -/
def order : Edit → List String → List String
  | register c, ids => if c.id ∈ ids then ids else ids ++ [c.id]
  | unregister name, ids => ids.filter (· ≠ name)
  | _, ids => ids

variable {e : Edit}

/-- An edit is a change, a registration or a removal. -/
theorem isChange_or_eq (e : Edit) :
    e.IsChange ∨ (∃ c, e = register c) ∨ ∃ name, e = unregister name := by
  cases e with
  | register c => exact Or.inr (Or.inl ⟨c, rfl⟩)
  | unregister name => exact Or.inr (Or.inr ⟨name, rfl⟩)
  | _ => exact Or.inl trivial

theorem id_change (h : e.IsChange) (c : Command) : (e.change c).id = c.id := by
  cases e with
  | register | unregister => cases h
  | _ => rfl

theorem change_reset (name : String) (c : Command) : (reset name).change c = c.reset := rfl

theorem change_override (o : Override) (c : Command) : (override o).change c = o.apply c :=
  (o.apply_eq c).symm

/-- A change looks its command up and changes it. -/
theorem perform?_of_isChange (h : e.IsChange) (r : Registry) :
    e.perform? r = r.modify? e.id e.change := by
  cases e with
  | register | unregister => cases h
  | override o => exact congrArg (r.modify? o.command) (funext o.apply_eq)
  | _ => rfl

theorem record?_of_isChange (h : e.IsChange) (record : Option Command) :
    e.record? record = record.map e.change := by
  cases e with
  | register | unregister => cases h
  | _ => rfl

theorem order_of_isChange (h : e.IsChange) (ids : List String) : e.order ids = ids := by
  cases e with
  | register | unregister => cases h
  | _ => rfl

theorem mem_order_iff {name : String} {ids : List String} :
    name ∈ e.order ids ↔
      (∃ c, e = .register c ∧ c.id = name) ∨ name ∈ ids ∧ e ≠ .unregister name := by
  cases e with
  | register c =>
    rw [order]
    by_cases hc : c.id ∈ ids
    · simp only [hc, if_true, register.injEq, exists_eq_left', ne_eq, reduceCtorEq,
        not_false_eq_true, and_true]
      exact (or_iff_right_of_imp fun h => h ▸ hc).symm
    · simp [hc, or_comm, @eq_comm _ name]
  | unregister name' => simp [order, @eq_comm _ name']
  | _ => simp [order]

end Edit

theorem editAll_concat (r : Registry) (edits : List Edit) (e : Edit) :
    r.editAll (edits ++ [e]) = (r.editAll edits).edit e := by
  simp [editAll]

namespace Indexed

variable {r r' : Registry} {name : String}

/-! ## Records -/

theorem positions_eq_none_iff (h : r.Indexed) : r.positions[name]? = none ↔ name ∉ r.ids := by
  constructor
  · exact h.positions.not_mem
  · intro hname
    rw [Option.eq_none_iff_forall_ne_some]
    intro i hi
    exact hname (List.mem_of_getElem? ((h.positions name i).mp hi))

/-- The record of a name is the first command of this name, of which there is at most one. -/
theorem get?_eq_find? (h : r.Indexed) (name : String) :
    r.get? name = r.commands.find? (·.id = name) := by
  ext c
  rw [h.get?_eq_some_iff]
  constructor
  · rintro ⟨hc, rfl⟩
    have hsome : (r.commands.find? (·.id = c.id)).isSome := by
      rw [List.find?_isSome]
      exact ⟨c, hc, by simp⟩
    obtain ⟨d, hd⟩ := Option.isSome_iff_exists.mp hsome
    have hid : d.id = c.id := by simpa using List.find?_some hd
    rw [hd, h.eq_of_id_eq (List.mem_of_find?_eq_some hd) hc hid]
  · intro hc
    exact ⟨List.mem_of_find?_eq_some hc, by simpa using List.find?_some hc⟩

theorem get?_eq_none_iff (h : r.Indexed) : r.get? name = none ↔ name ∉ r.ids := by
  rw [h.get?_eq_find?, List.find?_eq_none, ids, List.mem_map]
  simp

/-- The commands are the records of the names, in their order. -/
theorem commands_eq_filterMap (h : r.Indexed) : r.commands = r.ids.filterMap r.get? := by
  rw [ids, List.filterMap_map]
  have hget : ∀ c ∈ r.commands, (r.get? ∘ Command.id) c = some c := fun c hc =>
    (h.get?_eq_some_iff c.id c).mpr ⟨hc, rfl⟩
  rw [List.filterMap_congr hget, List.filterMap_some]

/-- An indexed registry is given by its positions and its records. -/
theorem eq_of_get?_eq (h : r.Indexed) (h' : r'.Indexed) (hpositions : r.positions = r'.positions)
    (hget : ∀ name, r.get? name = r'.get? name) : r = r' := by
  have hids : r.ids = r'.ids := by
    refine List.ext_getElem? fun i => Option.ext fun name => ?_
    rw [← h.positions name i, hpositions, h'.positions name i]
  have hcommands : r.commands = r'.commands := by
    rw [h.commands_eq_filterMap, h'.commands_eq_filterMap, hids, funext hget]
  obtain ⟨commands, positions, byFirst⟩ := r
  obtain ⟨commands', positions', byFirst'⟩ := r'
  obtain rfl : commands = commands' := hcommands
  obtain rfl : positions = positions' := hpositions
  have hfirst : byFirst = byFirst' := h.byFirst.trans h'.byFirst.symm
  rw [hfirst]

/-! ## The commands after each operation -/

/-- Changing the command at the position of a name is changing the command of this name. -/
theorem modify_eq_map (h : r.Indexed) {i : Nat} (hi : r.positions[name]? = some i)
    (change : Command → Command) :
    r.commands.modify i change =
      r.commands.map fun c => if c.id = name then change c else c := by
  refine List.ext_getElem? fun j => ?_
  rw [List.getElem?_modify, List.getElem?_map]
  cases hc : r.commands[j]? with
  | none => simp
  | some c =>
    -- The command at `j` has the name exactly if `j` is the position of the name.
    have hiff : i = j ↔ c.id = name := by
      rw [← Option.some.injEq, ← hi, h.positions name j, ids, List.getElem?_map, hc]
      simp
    by_cases hij : i = j
    · simp [hij, hiff.mp hij]
    · simp [hij, mt hiff.mpr hij]

theorem commands_register (h : r.Indexed) (c : Command) :
    (r.register c).commands =
      if c.id ∈ r.ids then r.commands.map fun d => if d.id = c.id then c else d
      else r.commands ++ [c] := by
  rw [Registry.register]
  split
  next i hi =>
    have hmem : c.id ∈ r.ids := List.mem_of_getElem? ((h.positions c.id i).mp hi)
    rw [if_pos hmem, ← h.modify_eq_map hi fun _ => c, List.set_eq_modify]
  next hnone => rw [if_neg (h.positions_eq_none_iff.mp hnone)]

/-- A change succeeds if its command is registered, and changes this command alone. -/
theorem modify?_of_mem (h : r.Indexed) (hname : name ∈ r.ids) (change : Command → Command) :
    ∃ r', r.modify? name change = some r' ∧ r'.positions = r.positions ∧
      r'.commands = r.commands.map fun c => if c.id = name then change c else c := by
  cases hi : r.positions[name]? with
  | none => exact absurd hname (h.positions_eq_none_iff.mp hi)
  | some i =>
    rw [Registry.modify?, hi]
    exact ⟨_, rfl, rfl, h.modify_eq_map hi change⟩

theorem modify?_of_not_mem (h : r.Indexed) (hname : name ∉ r.ids) (change : Command → Command) :
    r.modify? name change = none := by
  rw [Registry.modify?, h.positions_eq_none_iff.mpr hname]
  rfl

/-- A registered command can be removed, and the others stay. -/
theorem unregister?_of_get? (h : r.Indexed) {c : Command} (hc : r.get? name = some c) :
    ∃ r', r.unregister? name = some (c, r') ∧
      r'.commands = r.commands.filter (·.id ≠ name) := by
  obtain ⟨hmem, rfl⟩ := (h.get?_eq_some_iff name c).mp hc
  obtain ⟨r', hr', hcommands⟩ := h.exists_unregister? hmem
  refine ⟨r', hr', ?_⟩
  rw [hcommands, h.nodup_commands.erase_eq_filter]
  refine List.filter_congr fun d hd => ?_
  -- Of the commands, `c` is the only one of its name.
  have hiff : d = c ↔ d.id = c.id := ⟨congrArg Command.id, h.eq_of_id_eq hd hmem⟩
  by_cases hdc : d = c
  · simp [hdc]
  · simp [hdc, mt hiff.mpr hdc]

theorem unregister?_of_not_mem (h : r.Indexed) (hname : name ∉ r.ids) :
    r.unregister? name = none := by
  rw [Registry.unregister?, h.positions_eq_none_iff.mpr hname]
  rfl

theorem contains_iff (h : r.Indexed) : r.contains name = true ↔ name ∈ r.ids := by
  rw [contains, ← Std.HashMap.isSome_getElem?_eq_contains, Option.isSome_iff_ne_none, ne_eq,
    h.positions_eq_none_iff, not_not]

/-! ## Edits -/

/-- An edit other than a registration succeeds exactly if its command is registered. -/
theorem succeeds_iff (h : r.Indexed) {e : Edit} (he : ∀ c, e ≠ .register c) :
    e.succeeds r = true ↔ e.id ∈ r.ids := by
  rw [Edit.succeeds]
  rcases e.isChange_or_eq with hchange | ⟨c, rfl⟩ | ⟨name, rfl⟩
  · rw [e.perform?_of_isChange hchange]
    by_cases hname : e.id ∈ r.ids
    · obtain ⟨r', hr', -⟩ := h.modify?_of_mem hname e.change
      simp [hr', hname]
    · simp [h.modify?_of_not_mem hname, hname]
  · exact absurd rfl (he c)
  · change ((r.unregister? name).map Prod.snd).isSome = true ↔ name ∈ r.ids
    cases hc : r.get? name with
    | none =>
      have hname := h.get?_eq_none_iff.mp hc
      simp [h.unregister?_of_not_mem hname, hname]
    | some c =>
      obtain ⟨r', hr', -⟩ := h.unregister?_of_get? hc
      have hname : name ∈ r.ids := by
        by_contra hname
        simp [h.get?_eq_none_iff.mpr hname] at hc
      simp [hr', hname]

/-- An edit of a command that is not registered leaves the registry exactly as it was. -/
theorem edit_eq_self (h : r.Indexed) {e : Edit} (he : ∀ c, e ≠ .register c)
    (hname : e.id ∉ r.ids) : r.edit e = r := by
  have hfails : e.perform? r = none := by
    have hnot := mt (h.succeeds_iff he).mp hname
    rwa [Edit.succeeds, Option.not_isSome_iff_eq_none] at hnot
  rw [Registry.edit, hfails, Option.getD_none]

/-- A change is made to the command of its name, if there is one, and to no other. -/
theorem commands_edit_of_isChange (h : r.Indexed) {e : Edit} (he : e.IsChange) :
    (r.edit e).commands = r.commands.map fun c => if c.id = e.id then e.change c else c := by
  rw [Registry.edit, e.perform?_of_isChange he]
  by_cases hname : e.id ∈ r.ids
  · obtain ⟨r', hr', -, hcommands⟩ := h.modify?_of_mem hname e.change
    rw [hr', Option.getD_some, hcommands]
  · rw [h.modify?_of_not_mem hname, Option.getD_none]
    have hself : ∀ c ∈ r.commands, (if c.id = e.id then e.change c else c) = c := by
      intro c hc
      refine if_neg fun hid => hname ?_
      rw [← hid]
      exact List.mem_map_of_mem hc
    rw [List.map_congr_left hself, List.map_id']

theorem commands_edit_unregister (h : r.Indexed) (name : String) :
    (r.edit (.unregister name)).commands = r.commands.filter (·.id ≠ name) := by
  cases hc : r.get? name with
  | none =>
    have hname : name ∉ r.ids := h.get?_eq_none_iff.mp hc
    rw [h.edit_eq_self (e := .unregister name) (by simp) hname, eq_comm, List.filter_eq_self]
    intro c hmem
    simp only [ne_eq, decide_not, Bool.not_eq_true', decide_eq_false_iff_not]
    rintro rfl
    exact hname (List.mem_map_of_mem hmem)
  | some c =>
    obtain ⟨r', hr', hcommands⟩ := h.unregister?_of_get? hc
    rw [Registry.edit, Edit.perform?, hr', Option.map_some, Option.getD_some, hcommands]

/-- Changing the command of one name changes the record of this name, and no other. -/
theorem get?_of_commands_eq_map (h : r.Indexed) (h' : r'.Indexed) {change : Command → Command}
    (hchange : ∀ c, c.id = name → (change c).id = name)
    (hcommands : r'.commands = r.commands.map fun c => if c.id = name then change c else c)
    (name' : String) :
    r'.get? name' = if name = name' then (r.get? name').map change else r.get? name' := by
  -- The names stay, so that what is found is what was found before.
  have hid : ((fun c : Command => decide (c.id = name')) ∘ fun c =>
      if c.id = name then change c else c) = fun c => decide (c.id = name') := by
    funext c
    by_cases hc : c.id = name
    · simp [hc, hchange c hc]
    · simp [hc]
  rw [h'.get?_eq_find?, h.get?_eq_find?, hcommands, List.find?_map, hid]
  cases hfind : r.commands.find? (·.id = name') with
  | none => simp
  | some c =>
    have hc : c.id = name' := by simpa using List.find?_some hfind
    by_cases hname : name = name'
    · simp [hc, hname]
    · simp [hc, hname, Ne.symm hname]

/-- An edit concerns the record of its command alone. -/
theorem get?_edit (h : r.Indexed) (e : Edit) (name : String) :
    (r.edit e).get? name = if e.id = name then e.record? (r.get? name) else r.get? name := by
  have h' := h.edit e
  rcases e.isChange_or_eq with he | ⟨c, rfl⟩ | ⟨name', rfl⟩
  · rw [e.record?_of_isChange he]
    exact h.get?_of_commands_eq_map h' (fun c hc => (e.id_change he c).trans hc)
      (h.commands_edit_of_isChange he) name
  · change (r.register c).Indexed at h'
    change (r.register c).get? name = if c.id = name then some c else r.get? name
    have hcommands := h.commands_register c
    by_cases hmem : c.id ∈ r.ids
    · rw [if_pos hmem] at hcommands
      rw [h.get?_of_commands_eq_map h' (fun _ _ => rfl) hcommands name]
      by_cases hname : c.id = name
      · have hsome : r.get? c.id ≠ none := mt h.get?_eq_none_iff.mp (not_not.mpr hmem)
        obtain ⟨d, hd⟩ := Option.ne_none_iff_exists'.mp hsome
        rw [← hname, hd]
        rfl
      · rw [if_neg hname, if_neg hname]
    · rw [if_neg hmem] at hcommands
      rw [h'.get?_eq_find?, hcommands, List.find?_append, ← h.get?_eq_find?]
      by_cases hname : c.id = name
      · rw [← hname, h.get?_eq_none_iff.mpr hmem]
        simp
      · simp [hname]
  · change _ = if name' = name then none else r.get? name
    rw [h'.get?_eq_find?, h.commands_edit_unregister, List.find?_filter, h.get?_eq_find?]
    by_cases hname : name' = name
    · simp [hname]
    · rw [if_neg hname]
      refine congrArg (List.find? · r.commands) (funext fun c => ?_)
      by_cases hc : c.id = name
      · simp [hc, Ne.symm hname]
      · simp [hc]

/-- The order of the names changes as said. -/
theorem ids_edit (h : r.Indexed) (e : Edit) : (r.edit e).ids = e.order r.ids := by
  rcases e.isChange_or_eq with he | ⟨c, rfl⟩ | ⟨name, rfl⟩
  · rw [e.order_of_isChange he, ids, h.commands_edit_of_isChange he, List.map_map, ids]
    refine List.map_congr_left fun c _ => ?_
    by_cases hc : c.id = e.id <;> simp [hc, e.id_change he]
  · change (r.register c).ids = if c.id ∈ r.ids then r.ids else r.ids ++ [c.id]
    rw [ids, h.commands_register]
    by_cases hmem : c.id ∈ r.ids
    · rw [if_pos hmem, if_pos hmem, List.map_map, ids]
      refine List.map_congr_left fun d _ => ?_
      by_cases hd : d.id = c.id <;> simp [hd]
    · rw [if_neg hmem, if_neg hmem, List.map_append]
      rfl
  · change _ = r.ids.filter (· ≠ name)
    rw [ids, h.commands_edit_unregister, ids, List.filter_map]
    rfl

theorem positions_edit_of_isChange (h : r.Indexed) {e : Edit} (he : e.IsChange) :
    (r.edit e).positions = r.positions := by
  rw [Registry.edit, e.perform?_of_isChange he]
  by_cases hname : e.id ∈ r.ids
  · obtain ⟨r', hr', hpositions, -⟩ := h.modify?_of_mem hname e.change
    rw [hr', Option.getD_some, hpositions]
  · rw [h.modify?_of_not_mem hname, Option.getD_none]

/-- An edit that neither registers a new command nor removes one leaves the positions alone. -/
theorem positions_edit (h : r.Indexed) {e : Edit} (hunregister : ∀ name, e ≠ .unregister name)
    (hregister : ∀ c, e = .register c → c.id ∈ r.ids) : (r.edit e).positions = r.positions := by
  rcases e.isChange_or_eq with he | ⟨c, rfl⟩ | ⟨name, rfl⟩
  · exact h.positions_edit_of_isChange he
  · change (r.register c).positions = r.positions
    rw [Registry.register]
    split
    next => rfl
    next hnone => exact absurd (hregister c rfl) (h.positions_eq_none_iff.mp hnone)
  · exact absurd rfl (hunregister name)

/-- Changes of different commands can be made in either order. -/
theorem edit_comm (h : r.Indexed) {e e' : Edit} (he : e.IsChange) (he' : e'.IsChange)
    (hne : e.id ≠ e'.id) : (r.edit e).edit e' = (r.edit e').edit e := by
  refine ((h.edit e).edit e').eq_of_get?_eq ((h.edit e').edit e) ?_ fun name => ?_
  · rw [(h.edit e).positions_edit_of_isChange he', h.positions_edit_of_isChange he,
      (h.edit e').positions_edit_of_isChange he, h.positions_edit_of_isChange he']
  · rw [(h.edit e).get?_edit, h.get?_edit, (h.edit e').get?_edit, h.get?_edit]
    by_cases hname : e.id = name
    · have hname' : e'.id ≠ name := fun heq => hne (hname.trans heq.symm)
      simp [hname, hname']
    · simp [hname]

/-- A change that comes to the same when it is made twice may be made twice. -/
theorem edit_idem (h : r.Indexed) {e : Edit} (he : e.IsChange)
    (hidem : ∀ c, e.change (e.change c) = e.change c) : (r.edit e).edit e = r.edit e := by
  refine ((h.edit e).edit e).eq_of_get?_eq (h.edit e) ?_ fun name => ?_
  · rw [(h.edit e).positions_edit_of_isChange he]
  · rw [(h.edit e).get?_edit, h.get?_edit, e.record?_of_isChange he, e.record?_of_isChange he]
    by_cases hname : e.id = name
    · simp [hname, Function.comp_def, hidem]
    · simp [hname]

/-! ## Edits in a row -/

/-- As long as no new command is registered and none is removed, the positions stay. -/
theorem positions_editAll (h : r.Indexed) {edits : List Edit}
    (hunregister : ∀ name, .unregister name ∉ edits)
    (hregister : ∀ c, .register c ∈ edits → c.id ∈ r.ids) :
    (r.editAll edits).positions = r.positions := by
  induction edits generalizing r with
  | nil => rfl
  | cons e edits ih =>
    have he : ∀ name, e ≠ .unregister name := by
      rintro name rfl
      exact hunregister name List.mem_cons_self
    have hstay : ∀ name ∈ r.ids, name ∈ (r.edit e).ids := fun name hname => by
      rw [h.ids_edit, Edit.mem_order_iff]
      exact Or.inr ⟨hname, he name⟩
    have hrest := ih (h.edit e) (fun name hmem => hunregister name (List.mem_cons_of_mem e hmem))
      fun c hc => hstay _ (hregister c (List.mem_cons_of_mem e hc))
    rw [editAll_cons, hrest]
    exact h.positions_edit he fun c hc => hregister c (hc ▸ List.mem_cons_self)

end Indexed

end Registry

end KeyChord
