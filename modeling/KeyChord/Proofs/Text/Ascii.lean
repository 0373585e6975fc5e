import KeyChord.Text.Blank
import KeyChord.Text.Case
import Mathlib.Tactic.SplitIfs

/-!
# Visible characters

The visible characters of ASCII are letters, digits and signs. None of them separates words, and
a letter in upper case is the same letter in lower case again (`toLower_toUpper`).
-/

namespace KeyChord.Text

/-- A character of ASCII that leaves a mark: neither a space nor a control character. -/
def IsVisible (c : Char) : Prop :=
  0x21 ≤ c.toNat ∧ c.toNat ≤ 0x7E

instance : DecidablePred IsVisible := fun c =>
  inferInstanceAs (Decidable (0x21 ≤ c.toNat ∧ c.toNat ≤ 0x7E))

variable {c : Char}

/-- Letters in upper case are 32 code points below those in lower case. -/
theorem toNat_toLower (c : Char) :
    c.toLower.toNat = if 0x41 ≤ c.toNat ∧ c.toNat ≤ 0x5A then c.toNat + 32 else c.toNat := by
  have hletter : 'A'.val ≤ c.val ∧ c.val ≤ 'Z'.val ↔ 0x41 ≤ c.toNat ∧ c.toNat ≤ 0x5A :=
    and_congr UInt32.le_iff_toNat_le UInt32.le_iff_toNat_le
  by_cases h : 0x41 ≤ c.toNat ∧ c.toNat ≤ 0x5A
  · have hdistance : ('a'.val - 'A'.val).toNat = 32 := by
      decide
    unfold Char.toLower
    rw [if_pos h, dif_pos (hletter.mpr h)]
    show (c.val + ('a'.val - 'A'.val)).toNat = c.toNat + 32
    rw [UInt32.toNat_add, hdistance, Char.toNat_val]
    omega
  · unfold Char.toLower
    rw [if_neg h, dif_neg (mt hletter.mp h)]

theorem toNat_toUpper (c : Char) :
    c.toUpper.toNat = if 0x61 ≤ c.toNat ∧ c.toNat ≤ 0x7A then c.toNat - 32 else c.toNat := by
  have hletter : 'a'.val ≤ c.val ∧ c.val ≤ 'z'.val ↔ 0x61 ≤ c.toNat ∧ c.toNat ≤ 0x7A :=
    and_congr UInt32.le_iff_toNat_le UInt32.le_iff_toNat_le
  by_cases h : 0x61 ≤ c.toNat ∧ c.toNat ≤ 0x7A
  · -- The negative distance is a number modulo the size of the word.
    have hdistance : ('A'.val - 'a'.val).toNat = 2 ^ 32 - 32 := by
      decide
    unfold Char.toUpper
    rw [if_pos h, dif_pos (hletter.mpr h)]
    show (c.val + ('A'.val - 'a'.val)).toNat = c.toNat - 32
    rw [UInt32.toNat_add, hdistance, Char.toNat_val]
    omega
  · unfold Char.toUpper
    rw [if_neg h, dif_neg (mt hletter.mp h)]

theorem toLower_toUpper (c : Char) : c.toUpper.toLower = c.toLower := by
  apply Char.toNat_inj.mp
  simp only [toNat_toLower, toNat_toUpper]
  split_ifs <;> omega

/-- Whether a character is visible does not depend on its case. -/
theorem isVisible_toUpper : IsVisible c.toUpper ↔ IsVisible c := by
  simp only [IsVisible, toNat_toUpper]
  split_ifs <;> omega

/-- No visible character separates words. -/
theorem isBlank_of_isVisible (h : IsVisible c) : isBlank c = false := by
  have hranges : ∀ range ∈ blankTable.ranges, range.2 < 0x21 ∨ 0x7E < range.1 := by
    decide
  obtain ⟨hfirst, hlast⟩ := h
  rw [isBlank, CodePoints.contains, List.any_eq_false]
  intro range hrange
  have := hranges range hrange
  simp only [Bool.and_eq_true, decide_eq_true_eq]
  omega

theorem upper_of_isVisible (h : IsVisible c) : upper c = [c.toUpper] :=
  if_pos (by have := h.2; omega)

theorem lower_of_isVisible (h : IsVisible c) : lower c = [c.toLower] :=
  if_pos (by have := h.2; omega)

end KeyChord.Text
