import KeyChord.Context.Assignment
import KeyChord.Proofs.Steps
import KeyChord.Proofs.Text.Trimming

/-!
# What assignments do to a context

An assignment is cut at its first equals sign, and every equals sign behind it belongs to the value.
Assignments are made one after another, so that of those to one key the last counts; the first that
has no key is the end of it.

The module introduces:

* `Context.Assigns text key value`: the text gives the key the value.
* `Context.IsPlainKey key`: the key can stand in front of an equals sign.
* `Context.lacksKey text`: there are only blanks where the key should be.
* `Context.LastAssigns assignments key value`: of the assignments to the key, the last gives it the
  value.

One assignment is judged by `readAssignment?_eq_some_iff` and `readAssignment?_eq_none_iff`, and
several by `assign_eq_error_iff`, `get?_assign_of_lastAssigns` and `get?_assign_of_not_assigns`.
-/

namespace KeyChord.Context

/-- The text gives the key the value. -/
inductive Assigns : String → String → Value → Prop
  /-- The text is cut at its first equals sign. -/
  | valued {key value : String} (hfirst : '=' ∉ key.toList) (hkey : Text.trim key ≠ "") :
      Assigns (key ++ "=" ++ value) (Text.trim key) (Value.read value)
  /-- A key alone is given the value true. -/
  | bare {key : String} (hnone : '=' ∉ key.toList) (hkey : Text.trim key ≠ "") :
      Assigns key (Text.trim key) (.bool true)

/-- The key can stand in front of an equals sign. -/
structure IsPlainKey (key : String) : Prop where
  /-- The key is not empty. -/
  ne_empty : key ≠ ""
  /-- There are no blanks at its ends. -/
  trimmed : Text.trim key = key
  /-- There is no equals sign in it. -/
  no_equals : '=' ∉ key.toList

instance (key : String) : Decidable (IsPlainKey key) :=
  decidable_of_iff (key ≠ "" ∧ Text.trim key = key ∧ '=' ∉ key.toList)
    ⟨fun ⟨hne, htrim, hequals⟩ => ⟨hne, htrim, hequals⟩,
      fun h => ⟨h.ne_empty, h.trimmed, h.no_equals⟩⟩

/-- There are only blanks where the key should be. -/
def lacksKey (text : String) : Bool :=
  (text.toList.takeWhile (· != '=')).all Text.isBlank

/-- Of the assignments to the key, the last gives it the value. -/
def LastAssigns (assignments : List String) (key : String) (value : Value) : Prop :=
  ∃ front text back, assignments = front ++ text :: back ∧ Assigns text key value ∧
    ∀ later ∈ back, ∀ value, ¬Assigns later key value

/-! ## One assignment -/

section One

variable {text key : String} {value : Value}

/-- What comes before the first equals sign is cut off there. -/
theorem cut_append (rest : List Char) (hfirst : '=' ∉ key.toList)
    (hrest : ∀ c ∈ rest.head?, c = '=') :
    (key.toList ++ rest).takeWhile (· != '=') = key.toList ∧
      (key.toList ++ rest).dropWhile (· != '=') = rest := by
  have hkey : ∀ c ∈ key.toList, (c != '=') = true := by
    intro c hc
    rw [bne_iff_ne]
    rintro rfl
    exact hfirst hc
  rw [List.takeWhile_append_of_pos hkey, List.dropWhile_append_of_pos hkey]
  cases rest with
  | nil => simp
  | cons c rest =>
    obtain rfl : c = '=' := hrest c rfl
    simp

/-- Every text is a key alone, or a key and a value with an equals sign between them. -/
theorem exists_cut (text : String) :
    ∃ key, '=' ∉ key.toList ∧ (text = key ∨ ∃ value, text = key ++ "=" ++ value) := by
  have hcut := List.takeWhile_append_dropWhile (p := (· != '=')) (l := text.toList)
  have hfirst : '=' ∉ text.toList.takeWhile (· != '=') := fun hmem =>
    absurd (List.mem_takeWhile_imp hmem) (by decide)
  have hrest := List.head?_dropWhile_not (· != '=') text.toList
  generalize text.toList.takeWhile (· != '=') = front at hcut hfirst
  generalize text.toList.dropWhile (· != '=') = rest at hcut hrest
  refine ⟨String.ofList front, by rwa [String.toList_ofList], ?_⟩
  cases rest with
  | nil =>
    rw [List.append_nil] at hcut
    exact Or.inl (by rw [hcut, String.ofList_toList])
  | cons c rest =>
    -- What ends the key is an equals sign.
    obtain rfl : c = '=' := by simpa using hrest
    exact Or.inr ⟨String.ofList rest, by simp [← String.toList_inj, ← hcut]⟩

/-- Before the equals sign there is the key, and behind it the value. -/
theorem readAssignment?_valued {behind : String} (hfirst : '=' ∉ key.toList) :
    readAssignment? (key ++ "=" ++ behind) =
      if Text.trim key = "" then none else some (Text.trim key, Value.read behind) := by
  obtain ⟨htake, hdrop⟩ := cut_append ('=' :: behind.toList) hfirst (by simp)
  have htoList : (key ++ "=" ++ behind).toList = key.toList ++ '=' :: behind.toList := by simp
  rw [readAssignment?, htoList]
  simp only [htake, hdrop, String.ofList_toList]
  rfl

/-- Without an equals sign, all of it is the key. -/
theorem readAssignment?_bare (hnone : '=' ∉ key.toList) :
    readAssignment? key =
      if Text.trim key = "" then none else some (Text.trim key, .bool true) := by
  obtain ⟨htake, hdrop⟩ := cut_append [] hnone (by simp)
  rw [List.append_nil] at htake hdrop
  simp only [readAssignment?, htake, hdrop]
  rfl

/-- An assignment is read as the value that it gives to its key. -/
theorem readAssignment?_eq_some_iff :
    readAssignment? text = some (key, value) ↔ Assigns text key value := by
  constructor
  · intro h
    obtain ⟨before, hfirst, rfl | ⟨behind, rfl⟩⟩ := exists_cut text
    · rw [readAssignment?_bare hfirst] at h
      split_ifs at h with hkey
      cases h
      exact .bare hfirst hkey
    · rw [readAssignment?_valued hfirst] at h
      split_ifs at h with hkey
      cases h
      exact .valued hfirst hkey
  · rintro (⟨hfirst, hkey⟩ | ⟨hnone, hkey⟩)
    · rw [readAssignment?_valued hfirst, if_neg hkey]
    · rw [readAssignment?_bare hnone, if_neg hkey]

/-- A plain key is given the value that is written behind the equals sign. -/
theorem IsPlainKey.assigns (h : IsPlainKey key) (behind : String) :
    Assigns (key ++ "=" ++ behind) key (Value.read behind) := by
  have hne : Text.trim key ≠ "" := by
    rw [h.trimmed]
    exact h.ne_empty
  have hassigns : Assigns (key ++ "=" ++ behind) (Text.trim key) (Value.read behind) :=
    .valued h.no_equals hne
  rwa [h.trimmed] at hassigns

/-- A text is no assignment exactly if it lacks a key. -/
theorem readAssignment?_eq_none_iff : readAssignment? text = none ↔ lacksKey text = true := by
  obtain ⟨before, hfirst, rfl | ⟨behind, rfl⟩⟩ := exists_cut text
  · have htake := (cut_append [] hfirst (by simp)).1
    rw [List.append_nil] at htake
    rw [readAssignment?_bare hfirst, lacksKey, htake]
    show _ ↔ Text.isBlankText text = true
    simp [← Text.trim_eq_empty_iff]
  · have htake := (cut_append ('=' :: behind.toList) hfirst (by simp)).1
    have htoList : (before ++ "=" ++ behind).toList = before.toList ++ '=' :: behind.toList := by
      simp
    rw [readAssignment?_valued hfirst, lacksKey, htoList, htake]
    show _ ↔ Text.isBlankText before = true
    simp [← Text.trim_eq_empty_iff]

/-- A text gives a value to at most one key, and at most one value. -/
theorem Assigns.unique {key' : String} {value' : Value} (h : Assigns text key value)
    (h' : Assigns text key' value') : key = key' ∧ value = value' := by
  rw [← readAssignment?_eq_some_iff] at h h'
  rw [h] at h'
  cases h'
  exact ⟨rfl, rfl⟩

end One

/-! ## Some assignments -/

section Some

variable {start c : Context} {assignments : List String} {key : String} {value : Value}

/-- The first assignment is made, and then the others. -/
theorem assign_cons_of_assigns {text : String} (h : Assigns text key value) :
    start.assign (text :: assignments) = (start.set key value).assign assignments := by
  rw [assign, List.foldlM_cons, readAssignment?_eq_some_iff.mpr h]
  rfl

/-- Where assignments can be made, the first of them gives a key a value. -/
theorem exists_of_assign_cons {text : String} (hc : start.assign (text :: assignments) = .ok c) :
    ∃ key value, Assigns text key value ∧ (start.set key value).assign assignments = .ok c := by
  cases hread : readAssignment? text with
  | none =>
    rw [assign, List.foldlM_cons, hread] at hc
    cases hc
  | some assigned =>
    have hassigns := readAssignment?_eq_some_iff.mp hread
    rw [assign_cons_of_assigns hassigns] at hc
    exact ⟨assigned.1, assigned.2, hassigns, hc⟩

theorem assign_append (start : Context) (front back : List String) :
    start.assign (front ++ back) = start.assign front >>= (·.assign back) :=
  List.foldlM_append

/-- Making assignments fails with the first that lacks a key. -/
theorem assign_eq_error_iff {text : String} :
    start.assign assignments = .error text ↔ assignments.find? lacksKey = some text := by
  induction assignments generalizing start with
  | nil => exact iff_of_false nofun nofun
  | cons first assignments ih =>
    cases hread : readAssignment? first with
    | none =>
      rw [List.find?_cons_of_pos (readAssignment?_eq_none_iff.mp hread)]
      rw [assign, List.foldlM_cons, hread]
      show Except.error first = Except.error text ↔ _
      simp
    | some assigned =>
      obtain ⟨key, value⟩ := assigned
      have hkey : ¬lacksKey first = true := by simp [← readAssignment?_eq_none_iff, hread]
      have hassigns := readAssignment?_eq_some_iff.mp hread
      rw [List.find?_cons_of_neg hkey, assign_cons_of_assigns hassigns, ih]

/-- Assignments can be made if none of them lacks a key. -/
theorem exists_assign_eq_ok (start : Context) (h : assignments.find? lacksKey = none) :
    ∃ c, start.assign assignments = .ok c := by
  cases hassign : start.assign assignments with
  | ok c => exact ⟨c, rfl⟩
  | error text =>
    rw [assign_eq_error_iff.mp hassign] at h
    cases h

/-- A key that nothing is assigned to keeps its value. -/
theorem get?_assign_of_not_assigns (hc : start.assign assignments = .ok c)
    (h : ∀ text ∈ assignments, ∀ value, ¬Assigns text key value) : c.get? key = start.get? key := by
  induction assignments generalizing start with
  | nil =>
    cases hc
    rfl
  | cons first assignments ih =>
    obtain ⟨key', value, hassigns, hrest⟩ := exists_of_assign_cons hc
    have hne : key ≠ key' := by
      rintro rfl
      exact h first List.mem_cons_self value hassigns
    rw [ih hrest fun text hmem => h text (List.mem_cons_of_mem first hmem), get?_set, if_neg hne]

/-- A key has the value of the last assignment to it. -/
theorem get?_assign_of_lastAssigns (hc : start.assign assignments = .ok c)
    (h : LastAssigns assignments key value) : c.get? key = some value := by
  obtain ⟨front, text, back, rfl, hassigns, hlater⟩ := h
  rw [assign_append, bind_eq_ok_iff] at hc
  obtain ⟨before, -, hc⟩ := hc
  rw [assign_cons_of_assigns hassigns] at hc
  rw [get?_assign_of_not_assigns hc hlater, get?_set, if_pos rfl]

end Some

end KeyChord.Context
