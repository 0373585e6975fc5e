import KeyChord.Proofs.Keystroke.NormalForm
import KeyChord.Proofs.Keystroke.Reading

/-!
# One spelling for each key

What is known of a key does not depend on the case of its letters.

The module introduces:

* `Key.named? lower`: the key whose name is spelled so in lower case.
* `Key.folded? lower`: the same for all keys of which something is known, characters among them.
* `Keystroke.Made k`: the keystroke is made from the spelling of a key, from a character, or from a
  text that has been read.

The normal spelling is what is known of the key in lower case, or else the spelling as it is
(`normalize_eq_getD`), so that a spelling of a known key can be told by its normal spelling
(`exists_folded?_of_known`). The main statement is `normalize_canonical`: no normal spelling is
changed again, the names of keys stay names, letter case makes no difference to a known key, and
keystrokes are the same exactly if their keys have one normal spelling and their modifiers are
the same.
-/

namespace KeyChord

/-- A digit has no case. -/
theorem Text.toLower_of_isDigit {c : Char} (h : c.isDigit = true) : c.toLower = c := by
  rw [Char.isDigit_iff_toNat] at h
  have hlast : c.toNat ≤ 57 := h.2
  apply Char.toNat_inj.mp
  rw [Text.toNat_toLower, if_neg (by omega)]

namespace Key

/-- The key with this name in lower case: a name of the table, or else a function key. -/
def named? (lower : String) : Option String :=
  ((spellings.find? (·.2.contains lower)).map Prod.fst).or
    ((functionKey? 'f' lower.toList).map ("F" ++ toString ·))

/-- The key that is known by this spelling in lower case: a character, or a key with a name. -/
def folded? (lower : String) : Option String :=
  match lower.toList with
  | [' '] => some "Space"
  | [c] => some (String.singleton c)
  | _ => named? lower

/-! ## Spellings in lower case -/

/-- A single character is known. -/
theorem folded?_singleton (c : Char) :
    folded? (Text.asciiLower (String.singleton c)) = some (normalize (String.singleton c)) := by
  by_cases hc : c = ' '
  · subst hc
    rfl
  · have hlower : (Text.asciiLower (String.singleton c)).toList = [c.toLower] := by
      simp [Text.asciiLower]
    rw [normalize_singleton hc, folded?, hlower]
    split
    case h_1 heq => exact absurd (List.singleton_inj.mp heq) (toLower_ne_space hc)
    case h_2 d _ heq => rw [List.singleton_inj.mp heq]
    case h_3 hchar => exact absurd rfl (hchar c.toLower)

theorem folded?_of_length_ne_one {lower : String} (h : lower.toList.length ≠ 1) :
    folded? lower = named? lower := by
  unfold folded?
  split
  case h_1 heq => simp [heq] at h
  case h_2 heq => simp [heq] at h
  case h_3 => rfl

theorem normalize_of_length_ne_one {raw : String} (h : raw.toList.length ≠ 1) :
    normalize raw = (named? (Text.asciiLower raw)).getD raw := by
  unfold normalize named?
  split
  case h_1 heq => simp [heq] at h
  case h_2 heq => simp [heq] at h
  case h_3 =>
    simp only
    split
    case h_1 hfind => rw [hfind]; rfl
    case h_2 hfind =>
      rw [hfind]
      cases functionKey? 'f' (Text.asciiLower raw).toList <;> rfl

/-- The normal spelling is what is known of the key in lower case, or else the spelling as it is. -/
theorem normalize_eq_getD (raw : String) :
    normalize raw = (folded? (Text.asciiLower raw)).getD raw := by
  by_cases h : raw.toList.length = 1
  · obtain ⟨c, hc⟩ := List.length_eq_one_iff.mp h
    obtain rfl : raw = String.singleton c := by
      rw [← String.toList_inj, hc, String.toList_singleton]
    rw [folded?_singleton, Option.getD_some]
  · have hlower : (Text.asciiLower raw).toList.length ≠ 1 := by
      simpa [Text.asciiLower] using h
    rw [folded?_of_length_ne_one hlower, normalize_of_length_ne_one h]

/-! ## Names -/

/-- The number of a function key has no case. -/
theorem map_toLower_of_functionNumber? {cs : List Char} {number : Nat}
    (h : functionNumber? cs = some number) : cs.map Char.toLower = cs := by
  have hfixed : ∀ digits : List Char, digits.all Char.isDigit = true →
      digits.map Char.toLower = digits := by
    intro digits hdigits
    have hcase : ∀ c ∈ digits, c.toLower = c := fun c hc =>
      Text.toLower_of_isDigit (List.all_eq_true.mp hdigits c hc)
    rw [List.map_congr_left hcase, List.map_id']
  unfold functionNumber? at h
  simp only [Option.ite_none_right_eq_some] at h
  obtain ⟨⟨hdigits, -⟩, -⟩ := h
  split at hdigits
  · rw [List.map_cons, hfixed _ hdigits]
    rfl
  · exact hfixed _ hdigits

/-- The name of a function key is the letter and its number. -/
theorem functionKey?_eq_some_iff {letter : Char} {cs : List Char} {number : Nat} :
    functionKey? letter cs = some number ↔
      ∃ rest, cs = letter :: rest ∧ functionNumber? rest = some number := by
  constructor
  · intro h
    unfold functionKey? at h
    split at h
    · obtain ⟨rfl, hnumber⟩ := Option.ite_none_right_eq_some.mp h
      exact ⟨_, rfl, hnumber⟩
    · cases h
  · rintro ⟨rest, rfl, hnumber⟩
    exact (if_pos rfl).trans hnumber

theorem isNamed_of_mem_spellings {entry : String × List String} (h : entry ∈ spellings) :
    isNamed entry.1 = true := by
  rw [isNamed, Bool.or_eq_true, List.any_eq_true]
  exact Or.inl ⟨entry, h, beq_self_eq_true entry.1⟩

/-- Whatever has a name in lower case is a named key. -/
theorem isNamed_of_named? {lower key : String} (h : named? lower = some key) :
    isNamed key = true := by
  have hfunctions : ∀ number < 25, 1 ≤ number → isNamed ("F" ++ toString number) = true := by
    decide
  rw [named?, Option.or_eq_some_iff, Option.map_eq_some_iff, Option.map_eq_some_iff] at h
  rcases h with ⟨entry, hentry, rfl⟩ | ⟨-, number, hnumber, rfl⟩
  · exact isNamed_of_mem_spellings (List.mem_of_find?_eq_some hentry)
  · obtain ⟨hfirst, hlast⟩ := functionKey?_bounds hnumber
    exact hfunctions number (by omega) hfirst

/-- Every name is known in lower case, and is the name of a named key there. -/
theorem exists_folded?_of_isNamed {raw : String} (h : isNamed raw = true) :
    ∃ key, folded? (Text.asciiLower raw) = some key ∧ isNamed key = true := by
  have hnames : ∀ entry ∈ spellings, folded? (Text.asciiLower entry.1) = some entry.1 := by
    decide
  have hnumber? : functionNumber? [] = none := by
    decide
  rw [isNamed, Bool.or_eq_true, List.any_eq_true, Option.isSome_iff_exists] at h
  rcases h with ⟨entry, hentry, hname⟩ | ⟨number, hnumber⟩
  · obtain rfl : entry.1 = raw := by simpa using hname
    exact ⟨entry.1, hnames entry hentry, isNamed_of_mem_spellings hentry⟩
  · obtain ⟨rest, hraw, hrest⟩ := functionKey?_eq_some_iff.mp hnumber
    have hne : rest ≠ [] := by
      rintro rfl
      rw [hnumber?] at hrest
      cases hrest
    -- In lower case only the letter is another one, so that the number is read as before.
    have hlower : (Text.asciiLower raw).toList = 'f' :: rest := by
      rw [Text.asciiLower, String.toList_ofList, hraw, List.map_cons,
        map_toLower_of_functionNumber? hrest]
      rfl
    have hlength : (Text.asciiLower raw).toList.length ≠ 1 := by
      simpa [hlower] using hne
    have hfunction : functionKey? 'f' (Text.asciiLower raw).toList = some number :=
      functionKey?_eq_some_iff.mpr ⟨rest, hlower, hrest⟩
    obtain ⟨key, hkey⟩ : ∃ key, named? (Text.asciiLower raw) = some key := by
      rw [← Option.isSome_iff_exists, named?, hfunction]
      simp
    exact ⟨key, by rw [folded?_of_length_ne_one hlength, hkey], isNamed_of_named? hkey⟩

/-- A name stays a name when it is brought into its normal spelling. -/
theorem isNamed_normalize {raw : String} (h : isNamed raw = true) :
    isNamed (normalize raw) = true := by
  obtain ⟨key, hkey, hnamed⟩ := exists_folded?_of_isNamed h
  rw [normalize_eq_getD, hkey]
  exact hnamed

/-- A spelling whose normal spelling is a name or a character is a spelling of a known key. -/
theorem exists_folded?_of_known {raw : String}
    (h : isNamed (normalize raw) = true ∨ ∃ c, normalize raw = String.singleton c) :
    ∃ key, folded? (Text.asciiLower raw) = some key := by
  cases hfolded : folded? (Text.asciiLower raw) with
  | some key => exact ⟨key, rfl⟩
  | none =>
    -- The spelling of an unknown key is normal, so that it is itself a name or a character.
    rw [normalize_eq_getD, hfolded, Option.getD_none] at h
    rcases h with hnamed | ⟨c, rfl⟩
    · obtain ⟨key, hkey, -⟩ := exists_folded?_of_isNamed hnamed
      rw [hkey] at hfolded
      cases hfolded
    · rw [folded?_singleton] at hfolded
      cases hfolded

/-- Spellings of a known key that differ in the case of letters have one normal spelling. -/
theorem normalize_eq_of_equalIgnoringCase {raw raw' : String}
    (hcase : Text.equalIgnoringCase raw raw' = true)
    (h : isNamed (normalize raw) = true ∨ ∃ c, normalize raw = String.singleton c) :
    normalize raw = normalize raw' := by
  obtain ⟨key, hkey⟩ := exists_folded?_of_known h
  have hlower : Text.asciiLower raw = Text.asciiLower raw' := by
    simpa [Text.equalIgnoringCase] using hcase
  rw [normalize_eq_getD raw, normalize_eq_getD raw', ← hlower, hkey, Option.getD_some,
    Option.getD_some]

end Key

/-! ## Keystrokes -/

namespace Keystroke

/-- The ways in which a keystroke comes about. -/
inductive Made : Keystroke → Prop
  | ofKey (raw : String) (mods : Modifiers) : Made (.ofKey raw mods)
  | ofChar (c : Char) (mods : Modifiers) : Made (.ofChar c mods)
  | read {text : String} {k : Keystroke} (h : read text = .ok k) : Made k

/-- What is read is the keystroke of a key. -/
theorem exists_ofKey_of_read {text : String} {k : Keystroke} (h : read text = .ok k) :
    ∃ raw mods, k = ofKey raw mods := by
  rw [read_eq_outcome] at h
  unfold outcome at h
  split at h
  case h_1 => cases h
  case h_2 raw _ => exact ⟨raw, _, (Except.ok.inj h).symm⟩
  case h_3 => cases h

/-- Every keystroke has its key in the normal spelling. -/
theorem Made.normalize_key {k : Keystroke} (h : Made k) : Key.normalize k.key = k.key := by
  cases h with
  | ofKey raw mods => exact Key.normalize_normalize raw
  | ofChar c mods => exact Key.normalize_normalize (String.singleton c)
  | read h =>
    obtain ⟨raw, mods, rfl⟩ := exists_ofKey_of_read h
    exact Key.normalize_normalize raw

/-- Keystrokes are told apart by the normal spelling of their keys and by their modifiers. -/
theorem Made.eq_iff {k k' : Keystroke} (h : Made k) (h' : Made k') :
    k = k' ↔ Key.normalize k.key = Key.normalize k'.key ∧ k.mods.ctrl = k'.mods.ctrl ∧
      k.mods.alt = k'.mods.alt ∧ k.mods.shift = k'.mods.shift ∧ k.mods.super = k'.mods.super := by
  rw [h.normalize_key, h'.normalize_key]
  obtain ⟨key, ctrl, alt, shift, super⟩ := k
  obtain ⟨key', ctrl', alt', shift', super'⟩ := k'
  simp only [Keystroke.mk.injEq, Modifiers.mk.injEq]

end Keystroke

namespace Key

open Keystroke

/-- The normal spelling of a key is the same for all its spellings, and keystrokes are told apart
by it. -/
theorem normalize_canonical (raw : String) :
    normalize (normalize raw) = normalize raw ∧
      (isNamed raw = true → isNamed (normalize raw) = true) ∧
      (∀ raw', Text.equalIgnoringCase raw raw' = true →
        (isNamed (normalize raw) = true ∨ ∃ c, normalize raw = String.singleton c) →
          normalize raw = normalize raw') ∧
      (∀ k, Made k → normalize k.key = k.key) ∧
      ∀ k k', Made k → Made k' → (k = k' ↔
        normalize k.key = normalize k'.key ∧ k.mods.ctrl = k'.mods.ctrl ∧
          k.mods.alt = k'.mods.alt ∧ k.mods.shift = k'.mods.shift ∧
          k.mods.super = k'.mods.super) :=
  ⟨normalize_normalize raw, isNamed_normalize, fun _ => normalize_eq_of_equalIgnoringCase,
    fun _ => Made.normalize_key, fun _ _ => Made.eq_iff⟩

theorem normalize_canonical_function_key :
    (isNamed "F005" = true ∧ Text.equalIgnoringCase "F005" "f005" = true ∧
      read "f005+Ctrl" = .ok ⟨"F5", { ctrl := true }⟩) ∧
    normalize (normalize "F005") = normalize "F005" ∧ isNamed (normalize "F005") = true ∧
      normalize "F005" = normalize "f005" ∧ normalize "F5" = "F5" ∧
      Keystroke.ofKey "F005" { ctrl := true } = ⟨"F5", { ctrl := true }⟩ := by
  have hname : isNamed "F005" = true := by
    decide
  have hcase : Text.equalIgnoringCase "F005" "f005" = true := by
    decide
  have hread : read "f005+Ctrl" = .ok ⟨"F5", { ctrl := true }⟩ := by
    rfl
  obtain ⟨htwice, hnamed, hspellings, hnormal, heq⟩ := normalize_canonical "F005"
  have hkeys := (heq (.ofKey "F005" { ctrl := true }) ⟨"F5", { ctrl := true }⟩
    (.ofKey "F005" _) (.read hread)).mpr ⟨by decide, rfl, rfl, rfl, rfl⟩
  exact ⟨⟨hname, hcase, hread⟩, htwice, hnamed hname,
    hspellings "f005" hcase (Or.inl (hnamed hname)), hnormal ⟨"F5", _⟩ (.read hread), hkeys⟩

end Key

end KeyChord
