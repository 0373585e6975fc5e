import KeyChord.Proofs.Lists
import KeyChord.Proofs.Registry.Edits

/-!
# A registry is what its history says

A registry is an ordered map from names to records. Here it is read off the edits that have led to
it from the empty registry, without regard to lists and positions.

The module introduces, for a list of edits:

* `Present edits name`: the command is registered, and not removed afterwards.
* `Introduced edits i name`: the edit at `i` is the latest that registers the command while it is
  absent.
* `Recorded edits name c`: `c` is what the last registration of the command has recorded, with the
  later changes of the command.
* `OrderedMap edits r`: the registry `r` is the ordered map of the edits.

Each notion comes with a lemma about one more edit. The main statement is `orderedMap_editAll`.
-/

namespace KeyChord.Registry

/-! ## What a history says -/

/-- The command is registered, and not removed afterwards. -/
def Present (edits : List Edit) (name : String) : Prop :=
  ∃ before c after, edits = before ++ .register c :: after ∧ c.id = name ∧
    .unregister name ∉ after

/-- The edit at the position registers the command while it is absent. -/
def Introduces (edits : List Edit) (i : Nat) (name : String) : Prop :=
  ∃ c, edits[i]? = some (.register c) ∧ c.id = name ∧ ¬Present (edits.take i) name

/-- The edit at the position is the latest that registers the command while it is absent. -/
def Introduced (edits : List Edit) (i : Nat) (name : String) : Prop :=
  Introduces edits i name ∧ ∀ j, Introduces edits j name → j ≤ i

/-- The command has been registered as it was, and then changed by the later edits that are about
it, none of which registers it again or removes it. -/
def Recorded (edits : List Edit) (name : String) (c : Command) : Prop :=
  ∃ before d after, edits = before ++ .register d :: after ∧ d.id = name ∧
    (∀ e ∈ after, e.id = name → e.IsChange) ∧
    c = (after.filter (·.id = name)).foldl (fun c e => e.change c) d

/-- The registry is the ordered map of the edits. -/
structure OrderedMap (edits : List Edit) (r : Registry) : Prop where
  /-- The names are those that are present. -/
  mem_ids_iff : ∀ name, name ∈ r.ids ↔ Present edits name
  /-- No name is listed twice. -/
  nodup_ids : r.ids.Nodup
  /-- Each name has been introduced. -/
  introduced : ∀ name ∈ r.ids, ∃ i, Introduced edits i name
  /-- Names are listed in the order in which they have been introduced. -/
  ordered : r.ids.Pairwise fun first second =>
    ∀ i j, Introduced edits i first → Introduced edits j second → i < j
  /-- The record of a name is what has been recorded. -/
  get?_eq_some_iff : ∀ name c, r.get? name = some c ↔ Recorded edits name c
  /-- A removal returns the record and removes this command alone. -/
  unregister?_eq_some : ∀ name c, r.get? name = some c →
    ∃ r', r.unregister? name = some (c, r') ∧ r'.commands = r.commands.filter (·.id ≠ name)
  /-- An edit makes of the record of its command what it says, and of no other record anything. -/
  get?_edit : ∀ (e : Edit) name,
    (r.edit e).get? name = if e.id = name then e.record? (r.get? name) else r.get? name
  /-- A change is made to the record of its command alone, wherever it stands. -/
  commands_edit : ∀ e : Edit, e.IsChange →
    (r.edit e).commands = r.commands.map fun c => if c.id = e.id then e.change c else c
  /-- An edit that does not register a command tells whether its command is known. -/
  succeeds_iff : ∀ e : Edit, (∀ c, e ≠ .register c) → (e.succeeds r = true ↔ e.id ∈ r.ids)
  /-- An edit of an unknown command leaves the registry exactly as it was. -/
  edit_unknown : ∀ e : Edit, (∀ c, e ≠ .register c) → e.id ∉ r.ids → r.edit e = r
  /-- The number of commands is that of the names. -/
  size_eq : r.size = r.ids.length
  /-- A command is contained exactly if its name is listed. -/
  contains_iff : ∀ name, r.contains name = true ↔ name ∈ r.ids
  /-- The record of a name is the command of this name in the list. -/
  get?_eq_find? : ∀ name, r.get? name = r.commands.find? (·.id = name)

/-! ## One more edit -/

variable {edits : List Edit} {e : Edit} {name : String} {i : Nat}

theorem not_present_nil : ¬Present [] name := by
  rintro ⟨before, c, after, h, -⟩
  simp at h

theorem present_concat_iff :
    Present (edits ++ [e]) name ↔
      (∃ c, e = .register c ∧ c.id = name) ∨ Present edits name ∧ e ≠ .unregister name := by
  constructor
  · rintro ⟨before, c, after, hedits, hc, hafter⟩
    rcases concat_eq_append_cons_iff.mp hedits with ⟨rfl, rfl, rfl⟩ | ⟨after, rfl, rfl⟩
    · exact Or.inl ⟨c, rfl, hc⟩
    · simp only [List.mem_append, List.mem_singleton, not_or] at hafter
      exact Or.inr ⟨⟨before, c, after, rfl, hc, hafter.1⟩, Ne.symm hafter.2⟩
  · rintro (⟨c, rfl, hc⟩ | ⟨⟨before, c, after, rfl, hc, hafter⟩, he⟩)
    · exact ⟨edits, c, [], rfl, hc, List.not_mem_nil⟩
    · exact ⟨before, c, after ++ [e], by simp, hc, by simp [hafter, Ne.symm he]⟩

theorem Introduces.lt_length (h : Introduces edits i name) : i < edits.length := by
  obtain ⟨c, hc, -⟩ := h
  exact (List.getElem?_eq_some_iff.mp hc).1

theorem introduces_concat_iff :
    Introduces (edits ++ [e]) i name ↔
      Introduces edits i name ∨
        i = edits.length ∧ (∃ c, e = .register c ∧ c.id = name) ∧ ¬Present edits name := by
  have hbeyond : ∀ edits' : List Edit, edits'.length ≤ i → ¬Introduces edits' i name :=
    fun edits' hle h => absurd h.lt_length (Nat.not_lt_of_le hle)
  rcases Nat.lt_trichotomy i edits.length with hlt | rfl | hgt
  · have hle := Nat.le_of_lt hlt
    simp [Introduces, List.getElem?_append_left hlt, List.take_append_of_le_length hle,
      Nat.ne_of_lt hlt]
  · rw [or_iff_right (hbeyond edits (Nat.le_refl _))]
    simp [Introduces, ← and_assoc]
  · have hle : (edits ++ [e]).length ≤ i := by simpa using Nat.succ_le_of_lt hgt
    simp [hbeyond edits (Nat.le_of_lt hgt), hbeyond _ hle, Nat.ne_of_gt hgt]

/-! ## The order of the names -/

theorem Introduced.eq {j : Nat} (hi : Introduced edits i name) (hj : Introduced edits j name) :
    i = j :=
  Nat.le_antisymm (hj.2 i hi.1) (hi.2 j hj.1)

/-- A command that is present stays introduced where it has been. -/
theorem Introduced.concat (h : Introduced edits i name) (hpresent : Present edits name)
    (e : Edit) : Introduced (edits ++ [e]) i name := by
  refine ⟨introduces_concat_iff.mpr (Or.inl h.1), fun j hj => ?_⟩
  rcases introduces_concat_iff.mp hj with hj | ⟨-, -, habsent⟩
  · exact h.2 j hj
  · exact absurd hpresent habsent

theorem introduced_length {c : Command} (habsent : ¬Present edits c.id) :
    Introduced (edits ++ [.register c]) edits.length c.id := by
  refine ⟨introduces_concat_iff.mpr (Or.inr ⟨rfl, ⟨c, rfl, rfl⟩, habsent⟩), fun j hj => ?_⟩
  exact Nat.le_of_lt_succ (by simpa using hj.lt_length)

/-- What is present has been introduced. -/
theorem exists_introduced (h : Present edits name) : ∃ i, Introduced edits i name := by
  induction edits using List.reverseRecOn with
  | nil => exact absurd h not_present_nil
  | append_singleton edits e ih =>
    by_cases hbefore : Present edits name
    · obtain ⟨i, hi⟩ := ih hbefore
      exact ⟨i, hi.concat hbefore e⟩
    · rcases present_concat_iff.mp h with ⟨c, rfl, rfl⟩ | ⟨hpresent, -⟩
      · exact ⟨_, introduced_length hbefore⟩
      · exact absurd hpresent hbefore

theorem introduced_concat_iff (h : Present edits name) :
    Introduced (edits ++ [e]) i name ↔ Introduced edits i name := by
  obtain ⟨j, hj⟩ := exists_introduced h
  constructor
  · intro hi
    rwa [hi.eq (hj.concat h e)]
  · exact fun hi => hi.concat h e

/-- An edit puts a new name behind the others, or leaves the order of those that remain. -/
theorem Edit.order_cases (e : Edit) (ids : List String) :
    (∃ c, e = .register c ∧ c.id ∉ ids ∧ e.order ids = ids ++ [c.id]) ∨
      (e.order ids).Sublist ids := by
  cases e with
  | register c =>
    by_cases hc : c.id ∈ ids
    · exact Or.inr (by simp [order, hc])
    · exact Or.inl ⟨c, rfl, hc, by simp [order, hc]⟩
  | unregister name => exact Or.inr List.filter_sublist
  | _ => exact Or.inr (List.Sublist.refl ids)

theorem indexed_editAll_empty (edits : List Edit) : (empty.editAll edits).Indexed :=
  indexed_empty.editAll edits

theorem mem_ids_editAll_iff : name ∈ (empty.editAll edits).ids ↔ Present edits name := by
  induction edits using List.reverseRecOn with
  | nil => exact iff_of_false List.not_mem_nil not_present_nil
  | append_singleton edits e ih =>
    rw [editAll_concat, (indexed_editAll_empty edits).ids_edit, Edit.mem_order_iff, ih,
      present_concat_iff]

/-- Names are listed in the order in which they have been introduced. -/
theorem pairwise_ids_editAll (edits : List Edit) :
    (empty.editAll edits).ids.Pairwise fun first second =>
      ∀ i j, Introduced edits i first → Introduced edits j second → i < j := by
  induction edits using List.reverseRecOn with
  | nil => exact List.Pairwise.nil
  | append_singleton edits e ih =>
    rw [editAll_concat, (indexed_editAll_empty edits).ids_edit]
    -- The names that were there before have been introduced where they were before.
    have hbefore : (empty.editAll edits).ids.Pairwise fun first second =>
        ∀ i j, Introduced (edits ++ [e]) i first → Introduced (edits ++ [e]) j second → i < j := by
      refine ih.imp_of_mem fun {first second} hfirst hsecond hlt i j hi hj => ?_
      exact hlt i j ((introduced_concat_iff (mem_ids_editAll_iff.mp hfirst)).mp hi)
        ((introduced_concat_iff (mem_ids_editAll_iff.mp hsecond)).mp hj)
    rcases e.order_cases (empty.editAll edits).ids with ⟨c, rfl, hnew, horder⟩ | hsub
    · rw [horder, List.pairwise_append]
      refine ⟨hbefore, List.pairwise_singleton _ _, ?_⟩
      rintro first hfirst _ hlast i j hi hj
      obtain rfl := List.mem_singleton.mp hlast
      -- The new name is introduced by the last edit, and every other one before it.
      have hi' := (introduced_concat_iff (mem_ids_editAll_iff.mp hfirst)).mp hi
      rw [hj.eq (introduced_length (mt mem_ids_editAll_iff.mpr hnew))]
      exact hi'.1.lt_length
    · exact hbefore.sublist hsub

/-! ## The records -/

theorem recorded_concat_iff {c : Command} :
    Recorded (edits ++ [e]) name c ↔
      e = .register c ∧ c.id = name ∨
        ∃ d, Recorded edits name d ∧ (e.id = name → e.IsChange) ∧
          c = if e.id = name then e.change d else d := by
  constructor
  · rintro ⟨before, d, after, hedits, hd, hafter, rfl⟩
    rcases concat_eq_append_cons_iff.mp hedits with ⟨rfl, rfl, rfl⟩ | ⟨after, rfl, rfl⟩
    · exact Or.inl ⟨rfl, hd⟩
    · refine Or.inr ⟨_, ⟨before, d, after, rfl, hd, fun e he => hafter e (by simp [he]), rfl⟩,
        hafter e (by simp), ?_⟩
      by_cases he : e.id = name <;> simp [List.filter_append, he]
  · rintro (⟨rfl, hc⟩ | ⟨_, ⟨before, d, after, rfl, hd, hafter, rfl⟩, he, rfl⟩)
    · exact ⟨edits, c, [], rfl, hc, by simp, rfl⟩
    · refine ⟨before, d, after ++ [e], by simp, hd, ?_, ?_⟩
      · simpa [or_imp, forall_and] using ⟨hafter, he⟩
      · by_cases he : e.id = name <;> simp [List.filter_append, he]

/-- The record of a name is what has been recorded. -/
theorem get?_editAll_eq_some_iff {c : Command} :
    (empty.editAll edits).get? name = some c ↔ Recorded edits name c := by
  induction edits using List.reverseRecOn generalizing c with
  | nil =>
    refine iff_of_false ?_ ?_
    · rw [(indexed_editAll_empty []).get?_eq_find?]
      simp [editAll, empty]
    · rintro ⟨before, d, after, h, -⟩
      simp at h
  | append_singleton edits e ih =>
    rw [editAll_concat, (indexed_editAll_empty edits).get?_edit, recorded_concat_iff]
    simp only [← ih]
    by_cases hname : e.id = name
    · subst hname
      rcases e.isChange_or_eq with he | ⟨d, rfl⟩ | ⟨name, rfl⟩
      · have hregister : e ≠ .register c := by
          rintro rfl
          exact he
        simp [e.record?_of_isChange he, hregister, he, @eq_comm _ c]
      · have hid : d = c → c.id = (Edit.register d).id := fun h => congrArg Command.id h.symm
        simpa [Edit.record?, Edit.IsChange] using hid
      · simp [Edit.record?, Edit.IsChange]
    · have hregister : ¬(e = .register c ∧ c.id = name) := by
        rintro ⟨rfl, hc⟩
        exact hname hc
      simp [hname, hregister]

/-- A registry that comes from the empty one by edits is the ordered map of the edits. -/
theorem orderedMap_editAll (edits : List Edit) : OrderedMap edits (empty.editAll edits) := by
  have h := indexed_editAll_empty edits
  exact {
    mem_ids_iff := fun name => mem_ids_editAll_iff
    nodup_ids := h.nodup_ids
    introduced := fun name hname => exists_introduced (mem_ids_editAll_iff.mp hname)
    ordered := pairwise_ids_editAll edits
    get?_eq_some_iff := fun name c => get?_editAll_eq_some_iff
    unregister?_eq_some := fun name c hc => h.unregister?_of_get? hc
    get?_edit := h.get?_edit
    commands_edit := fun e he => h.commands_edit_of_isChange he
    succeeds_iff := fun e he => h.succeeds_iff he
    edit_unknown := fun e he hname => h.edit_eq_self he hname
    size_eq := (List.length_map Command.id).symm
    contains_iff := fun name => h.contains_iff
    get?_eq_find? := h.get?_eq_find? }

/-- A command that opens a tab. -/
def newTab : Command where
  id := "newTab"
  label := "New Tab"
  category := "Tabs"

/-- A command that closes a tab. -/
def closeTab : Command where
  id := "closeTab"
  label := "Close Tab"
  category := "Tabs"
  defaultKeys := some (.ofKeystroke ⟨"w", { ctrl := true }⟩)

/-- The command that closes a tab as a user might have changed it. -/
def changedCloseTab : Command :=
  { closeTab with
    customKeys := some (.ofKeystroke ⟨"w", { alt := true }⟩)
    customWhen := some (.ofSource "tabFocus") }

/-- Both commands are registered, and one of them loses its keybinding and then gets another and a
when-clause. -/
def tabEdits : List Edit :=
  [.register newTab, .register closeTab, .unbind "closeTab",
    .setKeys "closeTab" changedCloseTab.customKeys, .setWhen "closeTab" changedCloseTab.customWhen]

/-- The record has the keybinding and the when-clause that were set, and is unbound no more.
Removing the other command gives the record that was registered, and leaves this one alone. -/
theorem get?_tabEdits :
    (empty.editAll tabEdits).get? "closeTab" = some changedCloseTab ∧
      (∃ r, (empty.editAll tabEdits).unregister? "newTab" = some (newTab, r)) ∧
      (empty.editAll (tabEdits ++ [.unregister "newTab"])).get? "newTab" = none ∧
      (empty.editAll (tabEdits ++ [.unregister "newTab"])).get? "closeTab" =
        some changedCloseTab := by
  have hmap := orderedMap_editAll tabEdits
  have hclose : (empty.editAll tabEdits).get? "closeTab" = some changedCloseTab :=
    (hmap.get?_eq_some_iff _ _).mpr
      ⟨[.register newTab], closeTab, tabEdits.drop 2, rfl, rfl, by decide, rfl⟩
  have hnew : (empty.editAll tabEdits).get? "newTab" = some newTab :=
    (hmap.get?_eq_some_iff _ _).mpr ⟨[], newTab, tabEdits.drop 1, rfl, rfl, by decide, rfl⟩
  obtain ⟨r, hremoved, -⟩ := hmap.unregister?_eq_some _ _ hnew
  rw [editAll_concat, hmap.get?_edit, hmap.get?_edit, hclose]
  exact ⟨rfl, ⟨r, hremoved⟩, rfl, rfl⟩

end KeyChord.Registry
