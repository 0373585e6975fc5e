import KeyChord.Keystroke.Basic
import KeyChord.Proofs.Text.Ascii
import Mathlib.Tactic.SplitIfs

/-!
# The normal spelling of a key

Of all spellings of a key, `Key.normalize` picks one, and leaves that one as it is
(`normalize_normalize`). There are four kinds of normal spellings (`normalize_cases`): a character,
a name of the table, a function key, and whatever else is not changed.
-/

namespace KeyChord.Key

/-- The text is the normal spelling of some key. -/
def IsNormal (key : String) : Prop :=
  ∃ raw, normalize raw = key

theorem toLower_ne_space {c : Char} (h : c ≠ ' ') : c.toLower ≠ ' ' := by
  have hspace : ' '.toNat = 0x20 := rfl
  rw [ne_eq, ← Char.toNat_inj, hspace] at h ⊢
  rw [Text.toNat_toLower]
  split_ifs <;> omega

/-- A character other than the space is a key by itself, a letter in lower case. -/
theorem normalize_singleton {c : Char} (h : c ≠ ' ') :
    normalize (String.singleton c) = String.singleton c.toLower := by
  unfold normalize
  rw [String.toList_singleton]
  split
  case h_1 heq => exact absurd (List.singleton_inj.mp heq) h
  case h_2 d _ heq => rw [List.singleton_inj.mp heq]
  case h_3 hchar => exact absurd rfl (hchar c)

/-- Function keys are numbered from 1 to 24. -/
theorem functionNumber?_bounds {cs : List Char} {number : Nat}
    (h : functionNumber? cs = some number) : 1 ≤ number ∧ number ≤ 24 := by
  unfold functionNumber? at h
  simp only [Option.ite_none_right_eq_some, Option.some.injEq] at h
  obtain ⟨⟨-, hfirst, hlast⟩, rfl⟩ := h
  exact ⟨hfirst, hlast⟩

theorem functionKey?_bounds {letter : Char} {cs : List Char} {number : Nat}
    (h : functionKey? letter cs = some number) : 1 ≤ number ∧ number ≤ 24 := by
  unfold functionKey? at h
  split at h
  · split_ifs at h
    exact functionNumber?_bounds h
  · cases h

/-- The normal spelling is a character, a name, a function key, or the spelling itself. -/
theorem normalize_cases (raw : String) :
    (∃ c, c ≠ ' ' ∧ normalize raw = String.singleton (Char.toLower c)) ∨
      (∃ entry ∈ spellings, normalize raw = entry.1) ∨
      (∃ number, 1 ≤ number ∧ number ≤ 24 ∧ normalize raw = "F" ++ toString number) ∨
      normalize raw = raw := by
  unfold normalize
  split
  case h_1 => exact Or.inr (Or.inl ⟨("Space", ["space", "spacebar"]), by decide, rfl⟩)
  case h_2 c hspace _ => exact Or.inl ⟨c, hspace, rfl⟩
  case h_3 =>
    simp only
    split
    case h_1 name names hfind =>
      exact Or.inr (Or.inl ⟨(name, names), List.mem_of_find?_eq_some hfind, rfl⟩)
    case h_2 =>
      split
      case h_1 number hnumber =>
        obtain ⟨hfirst, hlast⟩ := functionKey?_bounds hnumber
        exact Or.inr (Or.inr (Or.inl ⟨number, hfirst, hlast, rfl⟩))
      case h_2 => exact Or.inr (Or.inr (Or.inr rfl))

/-- A normal spelling is left as it is. -/
theorem normalize_normalize (raw : String) : normalize (normalize raw) = normalize raw := by
  have hnames : ∀ entry ∈ spellings, normalize entry.1 = entry.1 := by
    decide
  have hfunctions : ∀ number < 25, 1 ≤ number →
      normalize ("F" ++ toString number) = "F" ++ toString number := by
    decide
  -- No earlier rule takes what a later one has made, for which there are finitely many names.
  rcases normalize_cases raw with ⟨c, hc, h⟩ | ⟨entry, hentry, h⟩ | ⟨number, hfirst, hlast, h⟩ | h
  · rw [h, normalize_singleton (toLower_ne_space hc), Text.toLower_toLower]
  · rw [h, hnames entry hentry]
  · rw [h, hfunctions number (by omega) hfirst]
  · rw [h, h]

theorem isNormal_iff {key : String} : IsNormal key ↔ normalize key = key := by
  constructor
  · rintro ⟨raw, rfl⟩
    exact normalize_normalize raw
  · intro h
    exact ⟨key, h⟩

end KeyChord.Key
