import KeyChord.Text.Blank
import Mathlib.Tactic.SplitIfs

/-!
# Texts cut into pieces

A text is cut at the characters that separate, and what stands between two of them is a piece unless
it is empty. Everything follows from what a single separator does (`pieces_append`): texts that have
been joined by a separator are cut into the pieces of each (`pieces_intercalate_eq_flatMap`), and if
they have no separators in them, they are the pieces again, save the empty ones
(`pieces_intercalate`).
-/

namespace KeyChord.Text

variable {separates : Char → Bool} {separator : String} {c : Char} {s t : String}

/-- The stretches of a list between the elements that separate have none of them. -/
theorem not_separates_of_mem_splitOnP {α : Type} {separates : α → Bool} {l stretch : List α}
    (h : stretch ∈ l.splitOnP separates) : ∀ a ∈ stretch, separates a = false := by
  induction l generalizing stretch with
  | nil =>
    obtain rfl : stretch = [] := by simpa using h
    simp
  | cons b l ih =>
    rw [List.splitOnP_cons_eq_if_modifyHead] at h
    split_ifs at h with hb
    · rcases List.mem_cons.mp h with rfl | h
      · simp
      · exact ih h
    · -- An element that does not separate goes in front of the first stretch.
      obtain ⟨first, rest, hsplit⟩ := List.exists_cons_of_ne_nil (List.splitOnP_ne_nil separates l)
      rw [hsplit] at h ih
      rcases List.mem_cons.mp h with rfl | h
      · have hfirst := ih List.mem_cons_self
        simp only [List.mem_cons, forall_eq_or_imp]
        exact ⟨by simpa using hb, hfirst⟩
      · exact ih (List.mem_cons_of_mem first h)

/-- A separator ends one piece and begins another. -/
theorem pieces_append (hseparator : separator.toList = [c]) (hc : separates c = true) :
    pieces separates (s ++ separator ++ t) = pieces separates s ++ pieces separates t := by
  unfold pieces
  simp only [String.toList_append, hseparator, List.append_assoc, List.singleton_append]
  rw [List.splitOnP_append_cons s.toList t.toList hc, List.filter_append, List.map_append]

/-- A text without separators is one piece, unless it is empty. -/
theorem pieces_of_forall (h : ∀ d ∈ s.toList, separates d = false) :
    pieces separates s = if s = "" then [] else [s] := by
  unfold pieces
  rw [List.splitOnP_eq_singleton h]
  by_cases hs : s = ""
  · simp [hs]
  · simp [hs, String.toList_eq_nil_iff]

/-- Texts that have been joined by a separator are cut into the pieces of each of them. -/
theorem pieces_intercalate_eq_flatMap (hseparator : separator.toList = [c])
    (hc : separates c = true) (texts : List String) :
    pieces separates (separator.intercalate texts) = texts.flatMap (pieces separates) := by
  induction texts with
  | nil => rfl
  | cons s texts ih =>
    cases texts with
    | nil => simp
    | cons t texts =>
      rw [String.intercalate_cons_cons, pieces_append hseparator hc, ih]
      rfl

/-- Texts that have been joined by a separator are the pieces again, save the empty ones. -/
theorem pieces_intercalate (hseparator : separator.toList = [c]) (hc : separates c = true)
    {texts : List String} (h : ∀ s ∈ texts, ∀ d ∈ s.toList, separates d = false) :
    pieces separates (separator.intercalate texts) = texts.filter (· ≠ "") := by
  rw [pieces_intercalate_eq_flatMap hseparator hc]
  induction texts with
  | nil => rfl
  | cons s texts ih =>
    rw [List.flatMap_cons, pieces_of_forall (h s List.mem_cons_self),
      ih fun t ht => h t (List.mem_cons_of_mem s ht)]
    by_cases hempty : s = "" <;> simp [hempty]

/-- A text has no pieces exactly if all its characters separate. -/
theorem pieces_eq_nil_iff : pieces separates s = [] ↔ ∀ d ∈ s.toList, separates d = true := by
  rw [pieces, List.map_eq_nil_iff, List.filter_eq_nil_iff]
  simp only [Bool.not_eq_true, Bool.not_eq_false', List.isEmpty_iff]
  induction s.toList with
  | nil => simp
  | cons d cs ih =>
    rw [List.splitOnP_cons_eq_if_modifyHead, List.forall_mem_cons, ← ih]
    by_cases hd : separates d = true
    · simp [hd]
    · -- The first stretch has the character in it.
      obtain ⟨first, rest, hsplit⟩ := List.exists_cons_of_ne_nil (List.splitOnP_ne_nil separates cs)
      simp [hd, hsplit]

/-- A text in which no separator is found has none. -/
theorem forall_mem_of_any_eq_false (h : s.toList.any separates = false) :
    ∀ d ∈ s.toList, separates d = false := by
  simpa using h

/-- What is so of the characters of all texts and of the separator is so of the joined text. -/
theorem forall_mem_intercalate {p : Char → Prop} {texts : List String}
    (hseparator : ∀ d ∈ separator.toList, p d) (h : ∀ s ∈ texts, ∀ d ∈ s.toList, p d) :
    ∀ d ∈ (separator.intercalate texts).toList, p d := by
  induction texts with
  | nil => simp
  | cons s texts ih =>
    have hs := h s List.mem_cons_self
    have hrest := ih fun t ht => h t (List.mem_cons_of_mem s ht)
    cases texts with
    | nil => simpa using hs
    | cons t texts =>
      rw [String.intercalate_cons_cons, String.toList_append, String.toList_append]
      simp only [List.forall_mem_append]
      exact ⟨⟨hs, hseparator⟩, hrest⟩

/-- A joined text ends with the last of its texts. -/
theorem suffix_intercalate (separator : String) (texts : List String) (s : String) :
    s.toList <:+ (separator.intercalate (texts ++ [s])).toList := by
  by_cases hnil : texts = []
  · simp only [hnil, List.nil_append, String.intercalate_singleton, List.suffix_refl]
  · rw [String.intercalate_append_of_ne_nil hnil (by simp), String.intercalate_singleton,
      String.toList_append]
    exact List.suffix_append _ _

end KeyChord.Text
