import KeyChord.Text.Blank
import Mathlib.Data.List.TakeWhile

/-!
# Texts without the blanks at their ends

What is left when the blanks at both ends of a text are cut off: everything between them
(`trimChars_append`), and nothing exactly if there is nothing else (`trim_eq_empty_iff`).
-/

namespace KeyChord.Text

/-- What begins with no blank is what is left when blanks are dropped in front of it. -/
theorem dropWhile_isBlank {blanks cs : List Char} (hblanks : ∀ c ∈ blanks, isBlank c = true)
    (hhead : ∀ c ∈ cs.head?, isBlank c = false) : (blanks ++ cs).dropWhile isBlank = cs := by
  rw [List.dropWhile_append_of_pos hblanks]
  cases cs with
  | nil => rfl
  | cons c cs => exact List.dropWhile_cons_of_neg (by simp [hhead c rfl])

/-- Blanks are trimmed away around characters that neither begin nor end with one. -/
theorem trimChars_append {front cs back : List Char} (hfront : ∀ c ∈ front, isBlank c = true)
    (hback : ∀ c ∈ back, isBlank c = true) (hne : cs ≠ [])
    (hhead : ∀ c ∈ cs.head?, isBlank c = false)
    (hlast : ∀ c ∈ cs.getLast?, isBlank c = false) : trimChars (front ++ (cs ++ back)) = cs := by
  have hhead' : ∀ c ∈ (cs ++ back).head?, isBlank c = false := by
    obtain ⟨c, cs, rfl⟩ := List.exists_cons_of_ne_nil hne
    exact hhead
  rw [trimChars, dropWhile_isBlank hfront hhead', List.reverse_append,
    dropWhile_isBlank (by simpa using hback) (by simpa using hlast), List.reverse_reverse]

/-- Nothing is left of a text without the blanks at its ends exactly if it is blank. -/
theorem trim_eq_empty_iff {s : String} : trim s = "" ↔ isBlankText s = true := by
  have hnil : trim s = "" ↔ trimChars s.toList = [] := by
    rw [trim, ← String.toList_inj, String.toList_ofList]
    rfl
  rw [hnil, trimChars, List.reverse_eq_nil_iff, List.dropWhile_eq_nil_iff, isBlankText,
    List.all_eq_true]
  constructor
  · intro h c hc
    -- The blanks in front are blank, and so is what comes after them.
    rw [← List.takeWhile_append_dropWhile (p := isBlank) (l := s.toList)] at hc
    rcases List.mem_append.mp hc with hc | hc
    · exact List.mem_takeWhile_imp hc
    · exact h c (List.mem_reverse.mpr hc)
  · intro h c hc
    exact h c ((List.dropWhile_suffix _).subset (List.mem_reverse.mp hc))

end KeyChord.Text
