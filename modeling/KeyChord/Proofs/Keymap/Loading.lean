import KeyChord.Keymap.Layers
import KeyChord.Proofs.Keymap.Precedence
import KeyChord.Proofs.Keymap.Reading
import KeyChord.Proofs.Text.Trimming

/-!
# A keymap file counts as a whole or not at all

The entries of a keymap file are read one after another, and the first bad one is the end of it.
Nothing has been registered by then: the registry sees a keymap only when all of it has been read.
How the entries are found in a text makes no difference to this, so that everything here is said of
any decoder.

The module introduces:

* `Source.Decodes decoder text source`: the text is blank, or the decoder finds the entries `source`
  in it.
* `source.applying`: the entries under `bindings` that count on this platform.
* `source.IsSound`: every entry that counts has what it needs.
* `source.Describes keymap`: the keymap holds one item for each entry that counts, in their order.
* `source.fault?`: what is wrong with the first entry that is not sound.
* `AllOrNothing decoder text result`: what `result` has to be if it is read from `text`.
* `ofLayer? decoder contents`: the keymap of a file that is there, can be read and is well formed.
* `Registry.LaidOver r keymaps merged`: what the commands of the registry `r` and those of the
  keymaps have become in `merged`.

Entries are judged by `CommandEntry.command?_eq_ok_iff` and its siblings, and files by
`ofSource_eq_ok_iff` and `ofSource_eq_error_iff`. The main statement is
`Registry.mergeFiles_allOrNothing`.
-/

namespace KeyChord

namespace Keymap

/-! ## What entries mean -/

/-- Why a text is no keybinding, if it is none. -/
def keysFault? (text : String) : Option Error :=
  match Keybinding.read text with
  | .ok _ => none
  | .error error => some (.invalidKeys error)

namespace CommandEntry

/-- The entry has a command, and a keybinding if it has a text for one. -/
def IsSound (entry : CommandEntry) : Prop :=
  Text.isBlankText entry.command = false ∧
    ∀ text ∈ entry.keys, ∃ keys, Keybinding.read text = .ok keys

/-- What is wrong with the entry: it names no command, or else its keybinding is none. -/
def fault? (entry : CommandEntry) : Option Error :=
  if Text.isBlankText entry.command then some .noCommand else entry.keys.bind keysFault?

/-- The command is the one of the entry. -/
structure Describes (entry : CommandEntry) (c : Command) : Prop where
  /-- The entry names a command. -/
  nonblank : Text.isBlankText entry.command = false
  /-- The name is that of the entry, without blanks around it. -/
  id : c.id = Text.trim entry.command
  /-- The label is that of the entry, or the name. -/
  label : c.label = entry.label.getD c.id
  /-- The category is that of the entry, or the general one. -/
  category : c.category = entry.category.getD defaultCategory
  /-- The default keybinding is what the text of the entry writes, if it has one. -/
  defaultKeys : entry.keys.map Keybinding.read = c.defaultKeys.map .ok
  /-- The default when-clause is that of the entry. -/
  defaultWhen : c.defaultWhen = readClause entry.clause
  /-- The user has changed nothing. -/
  isCustomized : c.isCustomized = false

end CommandEntry

namespace OverrideEntry

/-- The entry has a command, and unbinds it or has a keybinding if it has a text for one. -/
def IsSound (entry : OverrideEntry) : Prop :=
  Text.isBlankText entry.command = false ∧
    (entry.unbind = true ∨ ∀ text ∈ entry.keys, ∃ keys, Keybinding.read text = .ok keys)

/-- What is wrong with the entry: it names no command, or else it does not unbind it and its
keybinding is none. -/
def fault? (entry : OverrideEntry) : Option Error :=
  if Text.isBlankText entry.command then some .noCommand
  else if entry.unbind then none
  else entry.keys.bind keysFault?

/-- The change of the keybinding is the one of the entry. -/
inductive Changes (entry : OverrideEntry) : KeyChange → Prop
  | unbind (hunbind : entry.unbind = true) : Changes entry .unbind
  | inherit (hunbind : entry.unbind = false) (hkeys : entry.keys = none) : Changes entry .inherit
  | set {text : String} {keys : Keybinding} (hunbind : entry.unbind = false)
      (hkeys : entry.keys = some text) (hread : Keybinding.read text = .ok keys) :
      Changes entry (.set keys)

/-- The override is the one of the entry. -/
structure Describes (entry : OverrideEntry) (o : Override) : Prop where
  /-- The entry names a command. -/
  nonblank : Text.isBlankText entry.command = false
  /-- The name is that of the entry, without blanks around it. -/
  command : o.command = Text.trim entry.command
  /-- The change of the keybinding is that of the entry. -/
  keys : entry.Changes o.keys
  /-- The when-clause is that of the entry. -/
  clause : o.clause = readClause entry.clause

end OverrideEntry

/-! ## What files mean -/

namespace Source

/-- The text is blank and has no entries, or the decoder finds the entries in it. -/
def Decodes (decoder : Decoder) (text : String) (source : Source) : Prop :=
  Text.isBlankText text = true ∧ source = {} ∨
    Text.isBlankText text = false ∧ decoder text = .ok source

/-- The entries under `bindings` that are for every platform or for this one. -/
def applying (source : Source) : List CommandEntry :=
  source.commands.filter fun entry => entry.platform = none ∨ entry.platform = some hostPlatform

/-- Every entry that counts is sound. -/
def IsSound (source : Source) : Prop :=
  (∀ entry ∈ source.applying, entry.IsSound) ∧ ∀ entry ∈ source.overrides, entry.IsSound

/-- What is wrong with the first entry that is not sound, those under `bindings` coming first. -/
def fault? (source : Source) : Option Error :=
  (source.applying.findSome? CommandEntry.fault?).or
    (source.overrides.findSome? OverrideEntry.fault?)

/-- The keymap holds one item for each entry that counts, in the order of the file. -/
structure Describes (source : Source) (keymap : Keymap) : Prop where
  /-- Each command is that of an entry. -/
  commands : List.Forall₂ CommandEntry.Describes source.applying keymap.commands
  /-- Each override is that of an entry. -/
  overrides : List.Forall₂ OverrideEntry.Describes source.overrides keymap.overrides

end Source

/-- What is read from a text: the keymap that its entries describe, or what is wrong first. -/
structure AllOrNothing (decoder : Source.Decoder) (text : String)
    (result : Except Error Keymap) : Prop where
  /-- There is a keymap exactly if the text decodes to entries that are sound. -/
  succeeds_iff : (∃ keymap, result = .ok keymap) ↔
    ∃ source, Source.Decodes decoder text source ∧ source.IsSound
  /-- The keymap is what the entries describe. -/
  describes : ∀ keymap, result = .ok keymap →
    ∃ source, Source.Decodes decoder text source ∧ source.Describes keymap
  /-- A text that decodes is faulted for its first entry that is not sound. -/
  faulty_iff : ∀ source, Source.Decodes decoder text source →
    ∀ error, result = .error error ↔ source.fault? = some error
  /-- A text that does not decode is malformed. -/
  malformed : ∀ error, Text.isBlankText text = false → decoder text = .error error →
    result = .error (.malformed error)

/-- The keymap of a file that is there, can be read and is well formed. -/
def ofLayer? (decoder : Source.Decoder) (contents : Except FileError String) : Option Keymap :=
  contents.toOption.bind fun text => (read text decoder).toOption

/-! ## Reading the fields of an entry -/

section Fields

variable {text : String} {texts : Option String} {keys : Keybinding} {keys? : Option Keybinding}
  {error : Error} {name : String}

theorem readCommand_eq_ok_iff :
    readCommand text = .ok name ↔ Text.isBlankText text = false ∧ name = Text.trim text := by
  unfold readCommand
  by_cases htrim : Text.trim text = ""
  · simp [htrim, Text.trim_eq_empty_iff.mp htrim]
  · have hnonblank := mt Text.trim_eq_empty_iff.mpr htrim
    simp [htrim, Bool.eq_false_iff.mpr hnonblank, eq_comm]

theorem readCommand_eq_error_iff :
    readCommand text = .error error ↔ Text.isBlankText text = true ∧ error = .noCommand := by
  unfold readCommand
  rw [← Text.trim_eq_empty_iff]
  by_cases htrim : Text.trim text = "" <;> simp [htrim, eq_comm]

theorem keysFault?_eq_none_iff :
    keysFault? text = none ↔ ∃ keys, Keybinding.read text = .ok keys := by
  unfold keysFault?
  cases Keybinding.read text <;> simp

theorem readKeys_eq_ok_iff : readKeys text = .ok keys ↔ Keybinding.read text = .ok keys := by
  unfold readKeys
  cases Keybinding.read text <;> simp [Except.mapError]

theorem readKeys_eq_error_iff :
    readKeys text = .error error ↔ keysFault? text = some error := by
  unfold readKeys keysFault?
  cases Keybinding.read text <;> simp [Except.mapError]

theorem readKeys?_eq_ok_iff :
    readKeys? texts = .ok keys? ↔ texts.map Keybinding.read = keys?.map .ok := by
  cases texts with
  | none => cases keys? <;> simp [readKeys?]
  | some text =>
    unfold readKeys? readKeys
    cases hread : Keybinding.read text <;> cases keys? <;>
      simp [hread, Except.map, Except.mapError]

theorem readKeys?_eq_error_iff :
    readKeys? texts = .error error ↔ texts.bind keysFault? = some error := by
  cases texts with
  | none => simp [readKeys?]
  | some text =>
    rw [Option.bind_some, ← readKeys_eq_error_iff, readKeys?]
    cases readKeys text <;> simp [Except.map]

/-- A text that may be missing has no fault exactly if it writes a keybinding if it is there. -/
theorem bind_keysFault?_eq_none_iff :
    texts.bind keysFault? = none ↔ ∀ text ∈ texts, ∃ keys, Keybinding.read text = .ok keys := by
  simp [Option.bind_eq_none_iff, keysFault?_eq_none_iff]

end Fields

/-! ## Reading an entry -/

/-- Reading an entry under `bindings` gives its command, if it is sound. -/
theorem CommandEntry.command?_eq_ok_iff {entry : CommandEntry} {c : Command} :
    entry.command? = .ok c ↔ entry.Describes c := by
  rw [command?, bind_eq_ok_iff]
  simp only [bind_eq_ok_iff, readCommand_eq_ok_iff, readKeys?_eq_ok_iff]
  constructor
  · rintro ⟨_, ⟨hnonblank, rfl⟩, keys, hkeys, ⟨⟩⟩
    exact ⟨hnonblank, rfl, rfl, rfl, hkeys, rfl, rfl⟩
  · rintro ⟨hnonblank, hid, hlabel, hcategory, hkeys, hwhen, hcustomized⟩
    refine ⟨_, ⟨hnonblank, rfl⟩, c.defaultKeys, hkeys, ?_⟩
    -- A command that is not customized is given by the other fields.
    obtain ⟨hunbound, hcustomKeys, hcustomWhen⟩ := c.isCustomized_eq_false_iff.mp hcustomized
    obtain ⟨id, label, category, defaultKeys, customKeys, defaultWhen, customWhen, unbound⟩ := c
    simp_all [pure, Except.pure]

/-- Reading an entry under `bindings` fails with what is wrong with it. -/
theorem CommandEntry.command?_eq_error_iff (entry : CommandEntry) (error : Error) :
    entry.command? = .error error ↔ entry.fault? = some error := by
  rw [command?, bind_eq_error_iff, fault?]
  simp only [bind_eq_error_iff, readCommand_eq_ok_iff, readCommand_eq_error_iff,
    readKeys?_eq_error_iff]
  cases Text.isBlankText entry.command <;> simp [pure, Except.pure, eq_comm]

theorem CommandEntry.fault?_eq_none_iff (entry : CommandEntry) :
    entry.fault? = none ↔ entry.IsSound := by
  rw [fault?, IsSound, ← bind_keysFault?_eq_none_iff]
  cases Text.isBlankText entry.command <;> simp

/-- Reading what an entry does to the keybinding gives its change. -/
theorem OverrideEntry.keyChange?_eq_ok_iff {entry : OverrideEntry} {change : KeyChange} :
    entry.keyChange? = .ok change ↔ entry.Changes change := by
  unfold keyChange?
  constructor
  · intro h
    split at h
    next hunbind =>
      cases h
      exact .unbind hunbind
    next hunbind =>
      have hunbind : entry.unbind = false := Bool.eq_false_iff.mpr hunbind
      split at h
      next hkeys =>
        cases h
        exact .inherit hunbind hkeys
      next text hkeys =>
        cases hread : readKeys text with
        | error error => simp [hread, Except.map] at h
        | ok keys =>
          rw [hread] at h
          cases h
          exact .set hunbind hkeys (readKeys_eq_ok_iff.mp hread)
  · rintro (hunbind | ⟨hunbind, hkeys⟩ | ⟨hunbind, hkeys, hread⟩)
    · simp [hunbind]
    · simp [hunbind, hkeys]
    · simp [hunbind, hkeys, readKeys_eq_ok_iff.mpr hread, Except.map]

theorem OverrideEntry.keyChange?_eq_error_iff {entry : OverrideEntry} {error : Error} :
    entry.keyChange? = .error error ↔
      entry.unbind = false ∧ entry.keys.bind keysFault? = some error := by
  unfold keyChange?
  cases entry.unbind with
  | true => simp
  | false =>
    cases entry.keys with
    | none => simp
    | some text =>
      rw [Option.bind_some, ← readKeys_eq_error_iff]
      cases hread : readKeys text <;> simp [hread, Except.map]

/-- Reading an entry under `overrides` gives its override, if it is sound. -/
theorem OverrideEntry.override?_eq_ok_iff {entry : OverrideEntry} {o : Override} :
    entry.override? = .ok o ↔ entry.Describes o := by
  rw [override?, bind_eq_ok_iff]
  simp only [bind_eq_ok_iff, readCommand_eq_ok_iff, keyChange?_eq_ok_iff]
  constructor
  · rintro ⟨_, ⟨hnonblank, rfl⟩, change, hchange, ⟨⟩⟩
    exact ⟨hnonblank, rfl, hchange, rfl⟩
  · rintro ⟨hnonblank, hcommand, hchange, hclause⟩
    refine ⟨_, ⟨hnonblank, rfl⟩, o.keys, hchange, ?_⟩
    rw [← hcommand, ← hclause]
    rfl

/-- Reading an entry under `overrides` fails with what is wrong with it. -/
theorem OverrideEntry.override?_eq_error_iff (entry : OverrideEntry) (error : Error) :
    entry.override? = .error error ↔ entry.fault? = some error := by
  rw [override?, bind_eq_error_iff, fault?]
  simp only [bind_eq_error_iff, readCommand_eq_ok_iff, readCommand_eq_error_iff,
    keyChange?_eq_error_iff]
  cases Text.isBlankText entry.command <;> cases entry.unbind <;>
    simp [pure, Except.pure, eq_comm]

theorem OverrideEntry.fault?_eq_none_iff (entry : OverrideEntry) :
    entry.fault? = none ↔ entry.IsSound := by
  rw [fault?, IsSound, ← bind_keysFault?_eq_none_iff]
  cases Text.isBlankText entry.command <;> cases entry.unbind <;> simp

/-! ## Reading a file -/

section Files

variable {decoder : Source.Decoder} {source : Source} {keymap : Keymap} {error : Error}
  {text : String}

theorem Source.filter_applies (source : Source) :
    source.commands.filter CommandEntry.applies = source.applying := by
  refine List.filter_congr fun entry _ => ?_
  rw [Bool.eq_iff_iff, CommandEntry.applies, decide_eq_true_iff]
  cases entry.platform <;> simp

/-- Sound entries are those without a fault. -/
theorem Source.fault?_eq_none_iff : source.fault? = none ↔ source.IsSound := by
  simp [fault?, IsSound, Option.or_eq_none_iff, List.findSome?_eq_none_iff,
    CommandEntry.fault?_eq_none_iff, OverrideEntry.fault?_eq_none_iff]

/-- The entries of a file give the keymap that they describe. -/
theorem ofSource_eq_ok_iff : ofSource source = .ok keymap ↔ source.Describes keymap := by
  rw [ofSource, source.filter_applies, bind_eq_ok_iff]
  simp only [bind_eq_ok_iff, mapM_eq_ok_iff, CommandEntry.command?_eq_ok_iff,
    OverrideEntry.override?_eq_ok_iff]
  constructor
  · rintro ⟨commands, hcommands, overrides, hoverrides, ⟨⟩⟩
    exact ⟨hcommands, hoverrides⟩
  · rintro ⟨hcommands, hoverrides⟩
    exact ⟨_, hcommands, _, hoverrides, rfl⟩

/-- The entries of a file are faulted for the first that is not sound. -/
theorem ofSource_eq_error_iff : ofSource source = .error error ↔ source.fault? = some error := by
  have hcommands : ∀ error, source.applying.mapM CommandEntry.command? = .error error ↔
      source.applying.findSome? CommandEntry.fault? = some error := fun _ =>
    mapM_eq_error_iff CommandEntry.command?_eq_error_iff
  have hoverrides : ∀ error, source.overrides.mapM OverrideEntry.override? = .error error ↔
      source.overrides.findSome? OverrideEntry.fault? = some error := fun _ =>
    mapM_eq_error_iff OverrideEntry.override?_eq_error_iff
  rw [ofSource, source.filter_applies, bind_eq_error_iff, hcommands, Source.fault?,
    Option.or_eq_some_iff, ← exists_eq_ok_iff hcommands]
  -- The overrides are read only after all commands have been.
  simp only [bind_eq_error_iff, hoverrides]
  simp [pure, Except.pure]

theorem Source.read_eq_ok_iff :
    Source.read text decoder = .ok source ↔ Source.Decodes decoder text source := by
  unfold Source.read Source.Decodes
  cases Text.isBlankText text <;> simp [eq_comm]

/-- A text that decodes is read by its entries. -/
theorem read_of_decodes (h : Source.Decodes decoder text source) :
    read text decoder = ofSource source := by
  rw [read, Source.read_eq_ok_iff.mpr h]
  rfl

theorem exists_read_eq_ok_iff :
    (∃ keymap, read text decoder = .ok keymap) ↔
      ∃ source, Source.Decodes decoder text source ∧ source.IsSound := by
  have hsound : ∀ source, Source.Decodes decoder text source →
      ((∃ keymap, read text decoder = .ok keymap) ↔ source.IsSound) := fun source hdecodes => by
    rw [read_of_decodes hdecodes, exists_eq_ok_iff fun _ => ofSource_eq_error_iff,
      Source.fault?_eq_none_iff]
  constructor
  · intro hkeymap
    cases hsource : Source.read text decoder with
    | error error =>
      -- What does not decode gives no keymap.
      obtain ⟨keymap, hread⟩ := hkeymap
      rw [read, hsource] at hread
      cases hread
    | ok source =>
      have hdecodes := Source.read_eq_ok_iff.mp hsource
      exact ⟨source, hdecodes, (hsound source hdecodes).mp hkeymap⟩
  · rintro ⟨source, hdecodes, h⟩
    exact (hsound source hdecodes).mpr h

theorem allOrNothing_read (decoder : Source.Decoder) (text : String) :
    AllOrNothing decoder text (read text decoder) where
  succeeds_iff := exists_read_eq_ok_iff
  describes keymap hread := by
    obtain ⟨source, hdecodes, -⟩ := exists_read_eq_ok_iff.mp ⟨keymap, hread⟩
    rw [read_of_decodes hdecodes] at hread
    exact ⟨source, hdecodes, ofSource_eq_ok_iff.mp hread⟩
  faulty_iff source hdecodes error := by
    rw [read_of_decodes hdecodes]
    exact ofSource_eq_error_iff
  malformed error hnonblank herror := by
    simp [read, Source.read, hnonblank, herror, Except.mapError, bind, Except.bind]

end Files

end Keymap

/-! ## Layers -/

namespace Registry

variable {r : Registry} {decoder : Keymap.Source.Decoder}

/-- What has become of the commands of the registry `r` and of those of the keymaps, which have been
laid over it in their order. -/
structure LaidOver (r : Registry) (keymaps : List Keymap) (merged : Registry) : Prop where
  /-- The commands from before keep their order, and new ones follow in the order of their first
  registration. -/
  ids_eq : merged.ids =
    r.ids ++ ((keymaps.flatMap (·.commands.map Command.id)).filter (· ∉ r.ids)).eraseDups
  /-- The record of a name is that of its last registration, or the one from before if there is
  none, with what the overrides after this registration say. -/
  get?_eq : ∀ name, merged.get? name =
    ((lastRegistered? name (keymaps.flatMap Keymap.edits)).or (r.get? name)).map
      (·.overridden (overridesSince name (keymaps.flatMap Keymap.edits)))
  /-- There are no commands but the records of the names, in their order. -/
  commands_eq : merged.commands = merged.ids.filterMap merged.get?

/-- Merging keymaps lays them over a registry. -/
theorem Indexed.laidOver_foldl_merge (h : r.Indexed) (keymaps : List Keymap) :
    LaidOver r keymaps (keymaps.foldl merge r) where
  ids_eq := h.ids_foldl_merge keymaps
  get?_eq := h.get?_foldl_merge keymaps
  commands_eq := (h.foldl_merge keymaps).commands_eq_filterMap

/-- A file is merged if it gives a keymap, and passed over if it does not. -/
theorem mergeFile_eq (r : Registry) (contents : Except FileError String) :
    r.mergeFile contents decoder = (Keymap.ofLayer? decoder contents).elim r r.merge := by
  unfold mergeFile Keymap.ofFile Keymap.ofLayer?
  cases contents with
  | error error => simp [Except.mapError, Except.toOption, bind, Except.bind]
  | ok text =>
    cases hread : Keymap.read text decoder <;>
      simp [hread, Except.mapError, Except.toOption, bind, Except.bind]

theorem mergeFiles_eq_foldl_merge (r : Registry) (layers : List (Except FileError String)) :
    r.mergeFiles layers decoder =
      (layers.filterMap (Keymap.ofLayer? decoder)).foldl merge r := by
  unfold mergeFiles
  induction layers generalizing r with
  | nil => rfl
  | cons contents layers ih =>
    rw [List.foldl_cons, ih, mergeFile_eq, List.filterMap_cons]
    cases Keymap.ofLayer? decoder contents <;> rfl

/-- A text gives a keymap exactly if it is blank or decodes, every entry under `bindings` that is
not for another platform has a command and no bad keybinding, and every override has a command and
unbinds it or has no bad keybinding. The keymap then holds one item for each of these entries, in
the order of the file; otherwise the first entry that lacks something is to blame, those under
`bindings` coming first. Laying files over a registry is merging the keymaps of those that are
there, can be read and give one, in their order: their commands are registered and their overrides
applied, and the others might as well not be in the list. -/
theorem mergeFiles_allOrNothing (decoder : Keymap.Source.Decoder) (r : Registry)
    (layers : List (Except FileError String)) :
    (∀ text, Keymap.AllOrNothing decoder text (Keymap.read text decoder)) ∧
      r.mergeFiles layers decoder =
        (layers.filterMap (Keymap.ofLayer? decoder)).foldl merge r ∧
      (r.Reachable →
        LaidOver r (layers.filterMap (Keymap.ofLayer? decoder)) (r.mergeFiles layers decoder)) ∧
      ∀ front contents back, layers = front ++ contents :: back →
        (∀ text, contents = .ok text → ∃ error, Keymap.read text decoder = .error error) →
          r.mergeFiles layers decoder = r.mergeFiles (front ++ back) decoder := by
  refine ⟨Keymap.allOrNothing_read decoder, r.mergeFiles_eq_foldl_merge layers, fun hr => ?_, ?_⟩
  · rw [mergeFiles_eq_foldl_merge]
    exact hr.indexed.laidOver_foldl_merge _
  · rintro front contents back rfl hbad
    have hnone : Keymap.ofLayer? decoder contents = none := by
      unfold Keymap.ofLayer?
      cases contents with
      | error error => rfl
      | ok text =>
        obtain ⟨error, herror⟩ := hbad text rfl
        simp [Except.toOption, herror]
    rw [mergeFiles_eq_foldl_merge, mergeFiles_eq_foldl_merge, List.filterMap_append,
      List.filterMap_append, List.filterMap_cons_none hnone]

/-- A keymap file with a new command and an override. -/
def printing : String :=
  "\x7b\"bindings\": [\x7b\"command\": \"print\"\x7d], " ++
    "\"overrides\": [\x7b\"command\": \"save\", \"key\": \"alt+s\"\x7d]\x7d"

/-- What the file says. -/
def printingKeymap : Keymap where
  commands := [{ id := "print", label := "print", category := "General" }]
  overrides := [⟨"save", .set (.ofKeystroke ⟨"s", { alt := true }⟩), none⟩]

/-- A keymap file that is good up to its last entry, which names no command. -/
def spoilt : String :=
  "\x7b\"bindings\": [\x7b\"command\": \"close\"\x7d], \"overrides\": [" ++
    "\x7b\"command\": \"save\", \"key\": \"f2\"\x7d, \x7b\"command\": \" \"\x7d]\x7d"

/-- Files of which the first is good, the second is not there, the third has a bad entry and the
last is no document. -/
def printingLayers : List (Except FileError String) :=
  [.ok printing, .error .notFound, .ok spoilt, .ok "["]

theorem read_printing : Keymap.read printing = .ok printingKeymap := by decide +kernel

theorem read_spoilt : Keymap.read spoilt = .error .noCommand := by decide +kernel

theorem read_unclosed : Keymap.read "[" = .error (.malformed .form) := by decide +kernel

/-- The good file registers its command and changes the keybinding of the other. The bad ones leave
no trace: not even those of their entries that are good count. -/
theorem mergeFiles_printingLayers :
    ((ofList [save]).mergeFiles printingLayers).ids = ["save", "print"] ∧
      ((ofList [save]).mergeFiles printingLayers).get? "save" =
        some { save with customKeys := some (.ofKeystroke ⟨"s", { alt := true }⟩) } ∧
      (ofList [save]).mergeFiles printingLayers = (ofList [save]).mergeFiles [.ok printing] := by
  have hreach := reachable_ofList [save]
  have hcommands : (ofList [save]).commands = [save] := commands_ofList (by decide)
  have hids : (ofList [save]).ids = ["save"] := by rw [ids, hcommands]; rfl
  have hsave : (ofList [save]).get? "save" = some save := by
    rw [hreach.indexed.get?_eq_find?, hcommands]
    rfl
  have hkeymaps : printingLayers.filterMap (Keymap.ofLayer? .yaml) = [printingKeymap] := by
    simp [printingLayers, Keymap.ofLayer?, Except.toOption, read_printing, read_spoilt,
      read_unclosed]
  have hlaid := (mergeFiles_allOrNothing .yaml (ofList [save]) printingLayers).2.2.1 hreach
  rw [hkeymaps] at hlaid
  refine ⟨?_, ?_, ?_⟩
  · rw [hlaid.ids_eq, hids]
    decide
  · rw [hlaid.get?_eq, hsave]
    rfl
  · -- The bad files are dropped one after another.
    have hdrop := fun layers => (mergeFiles_allOrNothing .yaml (ofList [save]) layers).2.2.2
    have hmissing : ∀ text, Except.error FileError.notFound = (.ok text : Except FileError String) →
        ∃ error, Keymap.read text = .error error := by
      intro text htext
      cases htext
    have hspoilt : ∀ text, Except.ok spoilt = (.ok text : Except FileError String) →
        ∃ error, Keymap.read text = .error error := by
      intro text htext
      rw [← Except.ok.inj htext]
      exact ⟨_, read_spoilt⟩
    have hunclosed : ∀ text, Except.ok "[" = (.ok text : Except FileError String) →
        ∃ error, Keymap.read text = .error error := by
      intro text htext
      rw [← Except.ok.inj htext]
      exact ⟨_, read_unclosed⟩
    calc (ofList [save]).mergeFiles printingLayers
      _ = (ofList [save]).mergeFiles [.ok printing, .ok spoilt, .ok "["] :=
        hdrop _ [.ok printing] (.error .notFound) [.ok spoilt, .ok "["] rfl hmissing
      _ = (ofList [save]).mergeFiles [.ok printing, .ok "["] :=
        hdrop _ [.ok printing] (.ok spoilt) [.ok "["] rfl hspoilt
      _ = (ofList [save]).mergeFiles [.ok printing] :=
        hdrop _ [.ok printing] (.ok "[") [] rfl hunclosed

end Registry

end KeyChord
