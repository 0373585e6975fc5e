import Mathlib.Data.List.Nodup
import KeyChord.Context.Source
import KeyChord.Proofs.When.Assigned
import KeyChord.Proofs.When.RoundTrip

/-!
# Contexts survive being written as assignments

A context can be given as assignments, one for each key, with the text of the value behind the
equals sign. What is read from this text is the value again, whatever quotes, blanks, signs or words
there may be in it; and what a file says about the same keys does not count.

The module introduces:

* `c.keys`: the keys of a context. They are pairwise distinct in every context that is read from a
  file and changed by assignments (`nodup_keys_ofFile`, `nodup_keys_assign`).
* `Context.assignmentText entry`: the assignment that is written for a key and its value.
* `Context.IsAssignable entry`: the key can be given the value by an assignment.

What is read from the text of a value is the value (`Value.read_text`). The main statement is
`Context.ofSources_assignments`.
-/

namespace KeyChord

/-! ## Texts of values -/

/-- The text of a value is read as the value. -/
theorem Value.read_text {value : Value} (h : value ≠ .number .nan) : read value.text = value := by
  cases value with
  | bool b => cases b <;> rfl
  | number n =>
    cases n with
    | nan => exact absurd rfl h
    | infinite negative => cases negative <;> decide
    | finite negative rank =>
      -- A finite number is one token, so that there are no blanks to be trimmed away.
      have hwritten := When.written_text_finite negative rank
      rw [← hwritten.trimChars] at hwritten
      exact (When.read_of_number hwritten).1
  | string s =>
    have htext : (Value.string s).text.toList = [] ++ (('\'' :: (s.toList ++ ['\''])) ++ []) := by
      simp [text]
    -- The quotes keep the blanks of the text from being trimmed away.
    have htrim : Text.trimChars (Value.string s).text.toList = '\'' :: (s.toList ++ ['\'']) := by
      rw [htext, Text.trimChars_append (by simp) (by simp) (by simp) (by simp; decide)]
      intro c hc
      rw [← List.cons_append, List.getLast?_append] at hc
      cases hc
      decide
    rw [read_of_quoted (Or.inl rfl) htrim, String.ofList_toList]

namespace Context

/-- The assignment that is written for a key and its value. -/
def assignmentText (entry : String × Value) : String :=
  entry.1 ++ "=" ++ entry.2.text

/-- The key can be given the value by an assignment. -/
structure IsAssignable (entry : String × Value) : Prop where
  /-- The key is plain. -/
  key : IsPlainKey entry.1
  /-- The value is not undefined. -/
  value : entry.2 ≠ .number .nan

instance (entry : String × Value) : Decidable (IsAssignable entry) :=
  decidable_of_iff (IsPlainKey entry.1 ∧ entry.2 ≠ .number .nan)
    ⟨fun ⟨hkey, hvalue⟩ => ⟨hkey, hvalue⟩, fun h => ⟨h.key, h.value⟩⟩

/-- What is written for a key and its value gives the key this value. -/
theorem assigns_assignmentText {entry : String × Value} (h : IsAssignable entry) :
    Assigns (assignmentText entry) entry.1 entry.2 := by
  have hassigns := h.key.assigns entry.2.text
  rwa [Value.read_text h.value] at hassigns

/-! ## The keys of a context -/

/-- The keys of the context. -/
def keys (c : Context) : List String :=
  c.entries.map Prod.fst

variable {c start : Context} {assignments : List String} {key : String}

/-- A key that is given a value is kept where it is, or put behind the others if it is new. -/
theorem keys_set (c : Context) (key : String) (value : Value) :
    (c.set key value).keys = if key ∈ c.keys then c.keys else c.keys ++ [key] := by
  show (setEntry key value c.entries).map Prod.fst =
    if key ∈ c.entries.map Prod.fst then c.entries.map Prod.fst
    else c.entries.map Prod.fst ++ [key]
  induction c.entries with
  | nil => rfl
  | cons entry entries ih =>
    rw [setEntry]
    by_cases hkey : key = entry.1
    · simp [hkey]
    · simp only [beq_iff_eq, hkey, if_false, List.map_cons, ih, List.mem_cons, false_or]
      split_ifs <;> rfl

theorem nodup_keys_set (h : c.keys.Nodup) (key : String) (value : Value) :
    (c.set key value).keys.Nodup := by
  rw [keys_set]
  split_ifs with hkey
  · exact h
  · simpa [List.nodup_append] using ⟨h, fun other hmem heq => hkey (heq ▸ hmem)⟩

/-- Assignments keep the keys distinct. -/
theorem nodup_keys_assign (h : start.keys.Nodup) (hc : start.assign assignments = .ok c) :
    c.keys.Nodup := by
  induction assignments generalizing start with
  | nil =>
    cases hc
    exact h
  | cons text assignments ih =>
    obtain ⟨key, value, -, hrest⟩ := exists_of_assign_cons hc
    exact ih (nodup_keys_set h key value) hrest

/-- Whatever keeps the keys distinct keeps them so when it is done for each element of a list. -/
theorem nodup_keys_foldlM {α : Type} {f : Context → α → Option Context} {elements : List α}
    (hf : ∀ c element c', f c element = some c' → c.keys.Nodup → c'.keys.Nodup)
    (h : start.keys.Nodup) (hc : elements.foldlM f start = some c) : c.keys.Nodup := by
  induction elements generalizing start with
  | nil =>
    cases hc
    exact h
  | cons element elements ih =>
    obtain ⟨next, hnext, hrest⟩ := Option.bind_eq_some_iff.mp hc
    exact ih (hf start element next hnext h) hrest

/-- What is read from a JSON value has distinct keys. -/
theorem nodup_keys_ofJson? {json : Json} (h : ofJson? json = some c) : c.keys.Nodup := by
  cases json with
  | object members =>
    -- The members are set one after another, starting from no keys at all.
    have hempty : empty.keys.Nodup := List.nodup_nil
    refine nodup_keys_foldlM (fun before member after hset hbefore => ?_) hempty h
    obtain ⟨value, -, rfl⟩ := Option.map_eq_some_iff.mp hset
    exact nodup_keys_set hbefore member.1 value
  | _ => cases h

/-- What is read from a file has distinct keys. -/
theorem nodup_keys_ofFile {path : String} {contents : Except FileError String}
    (h : ofFile path contents = .ok c) : c.keys.Nodup := by
  obtain ⟨text, -, hread⟩ := bind_eq_ok_iff.mp h
  obtain ⟨json, -, hform⟩ := bind_eq_ok_iff.mp (mapError_eq_ok_iff.mp hread)
  cases hcontext : ofJson? json with
  | none =>
    simp only [hcontext] at hform
    cases hform
  | some c' =>
    simp only [hcontext] at hform
    cases hform
    exact nodup_keys_ofJson? hcontext

/-! ## Entries with distinct keys -/

section Entries

variable {entries entries' : List (String × Value)} {key : String} {value : Value}

/-- Nothing is found under a key that no entry has. -/
theorem lookup_eq_none_iff_not_mem : entries.lookup key = none ↔ key ∉ entries.map Prod.fst := by
  rw [List.lookup_eq_none_iff]
  constructor
  · intro h hmem
    obtain ⟨entry, hentry, rfl⟩ := List.mem_map.mp hmem
    simpa using h entry hentry
  · intro h entry hentry
    rw [bne_iff_ne]
    rintro rfl
    exact h (List.mem_map_of_mem hentry)

/-- An entry is what is found under its key, if the keys are distinct. -/
theorem mem_iff_lookup_eq_some (h : (entries.map Prod.fst).Nodup) :
    (key, value) ∈ entries ↔ entries.lookup key = some value := by
  rw [List.lookup_eq_some_iff]
  constructor
  · intro hmem
    obtain ⟨front, back, rfl⟩ := List.append_of_mem hmem
    refine ⟨front, back, rfl, fun entry hentry => ?_⟩
    rw [List.map_append, List.map_cons] at h
    have hdisjoint := (List.nodup_append.mp h).2.2
    simpa using (hdisjoint entry.1 (List.mem_map_of_mem hentry) key List.mem_cons_self).symm
  · rintro ⟨front, back, rfl, -⟩
    exact List.mem_append_right front List.mem_cons_self

/-- Entries with distinct keys are the same but for their order if the same is found under every
key. -/
theorem perm_of_lookup_eq (h : (entries.map Prod.fst).Nodup) (h' : (entries'.map Prod.fst).Nodup)
    (hlookup : ∀ key, entries.lookup key = entries'.lookup key) : entries.Perm entries' := by
  rw [List.perm_ext_iff_of_nodup (List.Nodup.of_map Prod.fst h) (List.Nodup.of_map Prod.fst h')]
  rintro ⟨key, value⟩
  rw [mem_iff_lookup_eq_some h, mem_iff_lookup_eq_some h', hlookup]

/-! ## Assignments that are written for entries -/

/-- What is assigned for some entries is one of them. -/
theorem exists_of_assigns_map (hassignable : ∀ entry ∈ entries, IsAssignable entry) {text : String}
    (htext : text ∈ entries.map assignmentText) :
    ∃ entry ∈ entries, Assigns text entry.1 entry.2 := by
  obtain ⟨entry, hentry, rfl⟩ := List.mem_map.mp htext
  exact ⟨entry, hentry, assigns_assignmentText (hassignable entry hentry)⟩

/-- None of the assignments that are written for some entries lacks a key. -/
theorem find?_lacksKey_map (hassignable : ∀ entry ∈ entries, IsAssignable entry) :
    (entries.map assignmentText).find? lacksKey = none := by
  rw [List.find?_eq_none]
  intro text htext
  obtain ⟨entry, -, hassigns⟩ := exists_of_assigns_map hassignable htext
  simp [← readAssignment?_eq_none_iff, readAssignment?_eq_some_iff.mpr hassigns]

/-- Of the assignments that are written for entries with distinct keys, each is the last to its
key. -/
theorem lastAssigns_of_mem (h : (entries.map Prod.fst).Nodup)
    (hassignable : ∀ entry ∈ entries, IsAssignable entry) (hmem : (key, value) ∈ entries) :
    LastAssigns (entries.map assignmentText) key value := by
  obtain ⟨front, back, rfl⟩ := List.append_of_mem hmem
  have hback : ∀ entry ∈ back, IsAssignable entry := fun entry hentry =>
    hassignable entry (List.mem_append_right front (List.mem_cons_of_mem _ hentry))
  refine ⟨_, _, _, List.map_append, assigns_assignmentText (hassignable _ hmem), ?_⟩
  intro later hlater value' hvalue'
  -- An assignment to the key behind this one would be a second entry for it.
  obtain ⟨entry, hentry, hassigns⟩ := exists_of_assigns_map hback hlater
  obtain ⟨rfl, -⟩ := hvalue'.unique hassigns
  rw [List.map_append, List.map_cons] at h
  have hnew := (List.nodup_cons.mp (List.nodup_append.mp h).2.1).1
  exact hnew (List.mem_map.mpr ⟨entry, hentry, rfl⟩)

/-- Nothing is assigned to a key that no entry has. -/
theorem not_assigns_of_not_mem (hassignable : ∀ entry ∈ entries, IsAssignable entry)
    (h : key ∉ entries.map Prod.fst) :
    ∀ text ∈ entries.map assignmentText, ∀ value, ¬Assigns text key value := by
  intro text htext value hvalue
  obtain ⟨entry, hentry, hassigns⟩ := exists_of_assigns_map hassignable htext
  obtain ⟨rfl, -⟩ := hvalue.unique hassigns
  exact h (List.mem_map_of_mem hentry)

/-- What is assigned for entries with distinct keys is what is found under these keys, wherever the
context has no others. -/
theorem get?_assign_map (h : (entries.map Prod.fst).Nodup)
    (hassignable : ∀ entry ∈ entries, IsAssignable entry)
    (hkeys : start.keys ⊆ entries.map Prod.fst)
    (hc : start.assign (entries.map assignmentText) = .ok c) (key : String) :
    c.get? key = entries.lookup key := by
  cases hlookup : entries.lookup key with
  | some value =>
    have hmem := (mem_iff_lookup_eq_some h).mpr hlookup
    exact get?_assign_of_lastAssigns hc (lastAssigns_of_mem h hassignable hmem)
  | none =>
    have hkey := lookup_eq_none_iff_not_mem.mp hlookup
    rw [get?_assign_of_not_assigns hc (not_assigns_of_not_mem hassignable hkey)]
    exact lookup_eq_none_iff_not_mem.mpr fun hmem => hkey (hkeys hmem)

end Entries

/-! ## Contexts from files and assignments -/

/-- The assignments are made on top of the file. -/
theorem ofSources_eq {file : Option (String × Except FileError String)}
    (hstart : ofSources file [] = .ok start) (assignments : List String) :
    ofSources file assignments = (start.assign assignments).mapError .assignment := by
  obtain ⟨base, hbase, hnone⟩ := bind_eq_ok_iff.mp hstart
  cases hnone
  rw [ofSources, hbase]
  rfl

/-- The keys of a context from a file are distinct. -/
theorem nodup_keys_start {file : Option (String × Except FileError String)}
    (hstart : ofSources file [] = .ok start) : start.keys.Nodup := by
  obtain ⟨base, hbase, hnone⟩ := bind_eq_ok_iff.mp hstart
  cases hnone
  cases file with
  | none =>
    cases hbase
    exact List.nodup_nil
  | some source => exact nodup_keys_ofFile hbase

/-- On top of a file, the assignments that are written for some keys and values give exactly these,
in whatever order they are made and whatever the file says about the same keys. Any assignments at
all fail with the first that lacks a key; if none does, a key has the value of the last assignment
to it, or else the one that it has in the file. -/
theorem ofSources_assignments {file : Option (String × Except FileError String)}
    (hstart : ofSources file [] = .ok start) :
    (∀ entries : List (String × Value), (entries.map Prod.fst).Nodup →
      (∀ entry ∈ entries, IsAssignable entry) → start.keys ⊆ entries.map Prod.fst →
        ∃ c, ofSources file (entries.map assignmentText) = .ok c ∧ c.entries.Perm entries ∧
          ∀ key, c.get? key = entries.lookup key) ∧
    ∀ assignments,
      (∀ error, ofSources file assignments = .error error ↔
        ∃ text, assignments.find? lacksKey = some text ∧ error = .assignment text) ∧
      ((∀ text ∈ assignments, lacksKey text = false) →
        ∃ c, ofSources file assignments = .ok c ∧ ∀ key,
          (∀ value, LastAssigns assignments key value → c.get? key = some value) ∧
          ((∀ text ∈ assignments, ∀ value, ¬Assigns text key value) →
            c.get? key = start.get? key)) := by
  constructor
  · intro entries hdistinct hassignable hkeys
    obtain ⟨c, hc⟩ := exists_assign_eq_ok start (find?_lacksKey_map hassignable)
    have hget := get?_assign_map hdistinct hassignable hkeys hc
    have hnodup := nodup_keys_assign (nodup_keys_start hstart) hc
    refine ⟨c, ?_, perm_of_lookup_eq hnodup hdistinct hget, hget⟩
    rw [ofSources_eq hstart, hc]
    rfl
  · intro assignments
    rw [ofSources_eq hstart]
    constructor
    · intro error
      rw [mapError_eq_error_iff]
      exact exists_congr fun text => and_congr_left' assign_eq_error_iff
    · intro hkeys
      have hnone : assignments.find? lacksKey = none :=
        List.find?_eq_none.mpr fun text htext => by simp [hkeys text htext]
      obtain ⟨c, hc⟩ := exists_assign_eq_ok start hnone
      refine ⟨c, mapError_eq_ok_iff.mpr hc, fun key => ⟨fun value hlast => ?_, fun hnot => ?_⟩⟩
      · exact get?_assign_of_lastAssigns hc hlast
      · exact get?_assign_of_not_assigns hc hnot

/-- Quotes, blanks and equals signs belong to the text that they stand in, and a text between quotes
is no truth value. -/
theorem ofSources_assignments_of_quotes :
    ∃ c, ofSources (some ("context.json", .ok "\x7b\"note\": false, \"mode\": \"old\"\x7d"))
        ["mode='it's = \"3\" '", "count=-inf", "note='true'"] = .ok c ∧
      c.entries.Perm [("mode", .string "it's = \"3\" "), ("count", .number (.infinite true)),
        ("note", .string "true")] := by
  have hstart : ofSources (some ("context.json",
      .ok "\x7b\"note\": false, \"mode\": \"old\"\x7d")) [] =
      .ok ⟨[("note", .bool false), ("mode", .string "old")]⟩ := by
    decide +kernel
  have hassignable : ∀ entry ∈ [("mode", Value.string "it's = \"3\" "),
      ("count", .number (.infinite true)), ("note", .string "true")], IsAssignable entry := by
    decide
  obtain ⟨c, hc, hperm, -⟩ := (ofSources_assignments hstart).1 _ (by decide) hassignable (by decide)
  exact ⟨c, hc, hperm⟩

end Context

end KeyChord
