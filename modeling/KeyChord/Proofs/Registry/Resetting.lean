import KeyChord.Proofs.Registry.Edits
import KeyChord.Proofs.Registry.Scan
import Mathlib.Data.List.Forall2

/-!
# Taking back what the user has changed

What the user changes of a command is kept in three fields beside its defaults, and each operation
writes some of the three. A reset clears them all, so that it does not matter which changes have
been made, how often or in which order: when every command has been reset, the registry is the one
that it would be if it had been reset at once.

The module introduces:

* `r.ChangedTo r'`: changes of commands lead from the registry `r` to `r'`.
* `c.SameOrigin d`: the two records differ at most in what the user has changed.
* `r.pristine`: the registry in which the commands of `r` are registered as they came.
* `r.SameAnswers r'`: every lookup gives the same in both registries.

One change keeps the origin of every record (`Indexed.map_reset_edit`), and so does a run of changes
(`Indexed.map_reset_editAll`). The main statement is `resetAll_of_changedTo`.
-/

namespace KeyChord

/-- The two records have the same name, label, category and defaults. -/
structure Command.SameOrigin (c d : Command) : Prop where
  /-- The names are equal. -/
  id : c.id = d.id
  /-- The labels are equal. -/
  label : c.label = d.label
  /-- The categories are equal. -/
  category : c.category = d.category
  /-- The default keybindings are equal. -/
  defaultKeys : c.defaultKeys = d.defaultKeys
  /-- The default when-clauses are equal. -/
  defaultWhen : c.defaultWhen = d.defaultWhen

namespace Registry

/-- Changes of commands, one by one or as lists of overrides, lead from `r` to the registry. -/
inductive ChangedTo (r : Registry) : Registry → Prop
  | refl : ChangedTo r r
  | edit {r' : Registry} {e : Edit} (he : e.IsChange) : ChangedTo r r' → ChangedTo r (r'.edit e)
  | overrideAll {r' : Registry} (overrides : List Override) :
      ChangedTo r r' → ChangedTo r (r'.overrideAll overrides).2

/-- The registry in which the commands are registered in their order and as they came. -/
def pristine (r : Registry) : Registry :=
  ofList (r.commands.map Command.reset)

/-- Every lookup gives the same in both registries. -/
structure SameAnswers (r r' : Registry) : Prop where
  /-- Each name has the same record. -/
  get? : ∀ name, r.get? name = r'.get? name
  /-- The exact matches are the same. -/
  exactMatches : ∀ sequence context,
    r.exactMatches sequence context = r'.exactMatches sequence context
  /-- The extensions are the same. -/
  extensions : ∀ sequence context, r.extensions sequence context = r'.extensions sequence context
  /-- The conflicts are the same. -/
  conflicts : ∀ keys, r.conflicts keys = r'.conflicts keys
  /-- Each name has the same effective keybinding. -/
  keysOf? : ∀ name, r.keysOf? name = r'.keysOf? name
  /-- The effective keybindings are shown in the same way. -/
  keysTextOf? : ∀ name, r.keysTextOf? name = r'.keysTextOf? name

end Registry

/-! ## Records -/

namespace Command

/-- The origin of a record is what a reset leaves of it. -/
theorem sameOrigin_iff {c d : Command} : c.SameOrigin d ↔ c.reset = d.reset := by
  constructor
  · rintro ⟨hid, hlabel, hcategory, hkeys, hwhen⟩
    simp [reset, hid, hlabel, hcategory, hkeys, hwhen]
  · intro h
    simp only [reset, mk.injEq, true_and, and_true] at h
    obtain ⟨hid, hlabel, hcategory, hkeys, hwhen⟩ := h
    exact ⟨hid, hlabel, hcategory, hkeys, hwhen⟩

theorem forall₂_sameOrigin_iff {commands commands' : List Command} :
    List.Forall₂ SameOrigin commands commands' ↔
      commands.map reset = commands'.map reset := by
  have hrelation : SameOrigin = fun c d => c.reset = d.reset := by
    ext c d
    exact sameOrigin_iff
  rw [hrelation, ← List.forall₂_eq_eq_eq, List.forall₂_map_left_iff, List.forall₂_map_right_iff]

@[simp]
theorem reset_reset (c : Command) : c.reset.reset = c.reset := rfl

end Command

namespace Registry

variable {r r' : Registry} {edits : List Edit} {names : List String}

/-- A change writes only what a reset clears. -/
theorem Edit.reset_change {e : Edit} (he : e.IsChange) (c : Command) :
    (e.change c).reset = c.reset := by
  cases e with
  | register | unregister => cases he
  | _ => rfl

/-! ## Runs of changes -/

/-- What changes of commands lead to, a list of changes leads to. -/
theorem ChangedTo.exists_editAll (h : r.ChangedTo r') :
    ∃ edits : List Edit, (∀ e ∈ edits, e.IsChange) ∧ r' = r.editAll edits := by
  induction h with
  | refl => exact ⟨[], by simp, rfl⟩
  | @edit _ e he _ ih =>
    obtain ⟨edits, hedits, rfl⟩ := ih
    refine ⟨edits ++ [e], ?_, (editAll_concat r edits e).symm⟩
    simpa [or_imp, forall_and] using ⟨hedits, he⟩
  | overrideAll overrides _ ih =>
    obtain ⟨edits, hedits, rfl⟩ := ih
    refine ⟨edits ++ overrides.map .override, ?_, ?_⟩
    · -- An override is a change, whatever it says.
      have hoverride : ∀ o : Override, (Edit.override o).IsChange := fun _ => trivial
      simpa [or_imp, forall_and] using ⟨hedits, fun o _ => hoverride o⟩
    · simp [overrideAll_eq_editAll, editAll]

namespace Indexed

/-- One change keeps the records in their order, each with its origin. -/
theorem map_reset_edit (h : r.Indexed) {e : Edit} (he : e.IsChange) :
    (r.edit e).commands.map Command.reset = r.commands.map Command.reset := by
  rw [h.commands_edit_of_isChange he, List.map_map]
  apply List.map_congr_left
  intro c _
  by_cases hc : c.id = e.id <;> simp [hc, Edit.reset_change he]

/-- A run of changes keeps the positions, and the records in their order, each with its origin. -/
theorem map_reset_editAll (h : r.Indexed) (hedits : ∀ e ∈ edits, e.IsChange) :
    (r.editAll edits).positions = r.positions ∧
      (r.editAll edits).commands.map Command.reset = r.commands.map Command.reset := by
  induction edits generalizing r with
  | nil => exact ⟨rfl, rfl⟩
  | cons e edits ih =>
    obtain ⟨he, hedits⟩ := List.forall_mem_cons.mp hedits
    obtain ⟨hpositions, hcommands⟩ := ih (h.edit e) hedits
    rw [editAll_cons, hpositions, hcommands]
    exact ⟨h.positions_edit_of_isChange he, h.map_reset_edit he⟩

/-- Resetting some commands changes these and no others. -/
theorem commands_editAll_reset (h : r.Indexed) (names : List String) :
    (r.editAll (names.map .reset)).commands =
      r.commands.map fun c => if c.id ∈ names then c.reset else c := by
  induction names generalizing r with
  | nil =>
    show r.commands = _
    simp
  | cons name names ih =>
    have hreset : (Edit.reset name).IsChange := trivial
    rw [List.map_cons, editAll_cons, ih (h.edit _), h.commands_edit_of_isChange hreset,
      List.map_map]
    apply List.map_congr_left
    intro c _
    -- A command that is named twice is reset twice, which is resetting it once.
    by_cases hname : c.id = name
    · simp [Edit.id, Edit.change_reset, hname]
    · simp [Edit.id, hname]

/-- Once every command has been reset, all are as they came. -/
theorem commands_resetAll (h : r.Indexed) (hnames : ∀ name ∈ r.ids, name ∈ names) :
    (r.editAll (names.map .reset)).commands = r.commands.map Command.reset := by
  rw [h.commands_editAll_reset]
  apply List.map_congr_left
  intro c hc
  exact if_pos (hnames c.id (List.mem_map_of_mem hc))

/-- An indexed registry is given by its positions and its commands. -/
theorem eq_of_commands_eq (h : r.Indexed) (h' : r'.Indexed)
    (hpositions : r.positions = r'.positions) (hcommands : r.commands = r'.commands) : r = r' := by
  refine h.eq_of_get?_eq h' hpositions fun name => ?_
  rw [h.get?_eq_find?, h'.get?_eq_find?, hcommands]

/-- Indexed registries of the same commands give the same answers, however the positions of their
names are kept. -/
theorem sameAnswers (h : r.Indexed) (h' : r'.Indexed) (hcommands : r.commands = r'.commands) :
    r.SameAnswers r' := by
  have hget : ∀ name, r.get? name = r'.get? name := fun name => by
    rw [h.get?_eq_find?, h'.get?_eq_find?, hcommands]
  have hcandidates : ∀ sequence, r.candidates sequence = r'.candidates sequence := by
    intro sequence
    unfold candidates
    rw [h.byFirst, h'.byFirst, hcommands]
  exact {
    get? := hget
    exactMatches := fun sequence _ => by rw [exactMatches, hcandidates, exactMatches]
    extensions := fun sequence _ => by rw [extensions, hcandidates, extensions]
    conflicts := fun keys => by rw [conflicts, hcandidates, conflicts]
    keysOf? := fun name => by rw [keysOf?, hget, keysOf?]
    keysTextOf? := fun name => by rw [keysTextOf?, keysOf?, hget, keysTextOf?, keysOf?] }

end Indexed

/-- Let changes of commands lead from a reachable registry `r` to `r'`. In `r'`, as at every point
on the way, the commands stand in the order of `r`, and each has its name, label, category, default
keybinding and default when-clause from there. When every command has then been reset, in whatever
order, nothing tells that there have been changes: the registry is `r` with every command reset. Its
records are those of `r` without what the user has changed, and every lookup gives what it gives in
a registry in which they have just been registered. -/
theorem resetAll_of_changedTo (h : r.Reachable) (hchanged : r.ChangedTo r')
    (hnames : ∀ name ∈ r.ids, name ∈ names) :
    List.Forall₂ Command.SameOrigin r'.commands r.commands ∧
      r'.editAll (names.map .reset) = r.editAll (names.map .reset) ∧
      (r'.editAll (names.map .reset)).commands = r.commands.map Command.reset ∧
      (r'.editAll (names.map .reset)).SameAnswers r.pristine := by
  obtain ⟨edits, hedits, rfl⟩ := hchanged.exists_editAll
  have hindexed := h.indexed
  have hindexed' := hindexed.editAll edits
  obtain ⟨hpositions, horigins⟩ := hindexed.map_reset_editAll hedits
  -- The changes keep the names, so that all of them are reset.
  have hids : (r.editAll edits).ids = r.ids := by
    have hmap := congrArg (List.map Command.id) horigins
    simpa [ids, Function.comp_def] using hmap
  have hcommands : ((r.editAll edits).editAll (names.map .reset)).commands =
      r.commands.map Command.reset := by
    rw [hindexed'.commands_resetAll (hids ▸ hnames), horigins]
  have hresets : ∀ e ∈ names.map Edit.reset, e.IsChange := by
    simp [Edit.IsChange]
  refine ⟨Command.forall₂_sameOrigin_iff.mpr horigins, ?_, hcommands, ?_⟩
  · apply (hindexed'.editAll _).eq_of_commands_eq (hindexed.editAll _)
    · rw [(hindexed'.map_reset_editAll hresets).1, hpositions,
        (hindexed.map_reset_editAll hresets).1]
    · rw [hcommands, hindexed.commands_resetAll hnames]
  · apply (hindexed'.editAll _).sameAnswers (reachable_ofList _).indexed
    have hnodup : ((r.commands.map Command.reset).map Command.id).Nodup := by
      simpa [ids, Function.comp_def] using hindexed.nodup_ids
    rw [hcommands, commands_ofList hnodup]

/-- Two rivals, of which the second has been unbound. -/
def settledRivals : Registry :=
  (ofList rivals).edit (.unbind "store")

/-- The second gets another keybinding and a when-clause, one command is not known, and the first is
unbound. -/
def changedRivals : Registry :=
  (settledRivals.overrideAll
    [⟨"store", .set (.ofKeystroke ⟨"s", { alt := true }⟩), some (.ofSource "editorFocus")⟩,
      ⟨"close", .unbind, none⟩]).2.edit (.unbind "save")

/-- When both have been reset, they are rivals again: also what had been changed of the second
before has been taken back. -/
theorem commands_changedRivals :
    settledRivals.Reachable ∧ settledRivals.ChangedTo changedRivals ∧
      (∀ name ∈ settledRivals.ids, name ∈ ["store", "save"]) ∧
      (changedRivals.editAll (["store", "save"].map .reset)).commands = rivals := by
  have hreach : (ofList rivals).Reachable := reachable_ofList rivals
  have hsettled : settledRivals.Reachable := hreach.edit (.unbind "store")
  have hchange : (Edit.unbind "store").IsChange := trivial
  have hcommands : (ofList rivals).commands = rivals := commands_ofList (by decide)
  have hids : settledRivals.ids = ["save", "store"] := by
    rw [settledRivals, hreach.indexed.ids_edit, Edit.order_of_isChange hchange, ids, hcommands]
    rfl
  have hnames : ∀ name ∈ settledRivals.ids, name ∈ ["store", "save"] := by
    simp [hids]
  have hunbind : (Edit.unbind "save").IsChange := trivial
  have hchanged : settledRivals.ChangedTo changedRivals :=
    .edit hunbind (.overrideAll _ .refl)
  obtain ⟨-, -, hreset, -⟩ := resetAll_of_changedTo hsettled hchanged hnames
  refine ⟨hsettled, hchanged, hnames, ?_⟩
  rw [hreset, settledRivals, hreach.indexed.map_reset_edit hchange, hcommands]
  rfl

end Registry

end KeyChord
