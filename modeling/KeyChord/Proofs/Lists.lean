import Mathlib.Data.List.Basic
import Mathlib.Data.List.Induction

/-!
# Lists

Facts about lists that the developments share: pairs of elements in their order, the first element
that passes a test, lists taken apart at their last element or put together around one, and the
first occurrences in a list.
-/

namespace KeyChord

variable {α : Type}

/-- In a list without repetitions, the elements before one are those of the part before it. -/
theorem pair_sublist_iff {c d : α} {front back : List α}
    (h : (front ++ c :: back).Nodup) : [d, c].Sublist (front ++ c :: back) ↔ d ∈ front := by
  induction front with
  | nil =>
    have hc : c ∉ back := (List.nodup_cons.mp h).1
    rw [List.nil_append, List.cons_sublist_cons', List.singleton_sublist]
    simp only [List.not_mem_nil, iff_false, not_or, not_and]
    exact ⟨fun hsub => hc (hsub.subset (by simp)), fun _ => hc⟩
  | cons a front ih =>
    rw [List.cons_append, List.nodup_cons] at h
    rw [List.cons_append, List.cons_sublist_cons', ih h.2, List.mem_cons, or_comm]
    simp

/-- The first element of a list that passes a test is the one before which none passes it. -/
theorem find?_eq_some_iff_of_nodup {l : List α} (hnodup : l.Nodup) {p : α → Bool} {c : α} :
    l.find? p = some c ↔ c ∈ l ∧ p c = true ∧ ∀ d, [d, c].Sublist l → ¬p d = true := by
  constructor
  · intro hfind
    obtain ⟨hc, front, back, rfl, hfront⟩ := List.find?_eq_some_iff_append.mp hfind
    refine ⟨by simp, hc, fun d hd => ?_⟩
    simpa using hfront d ((pair_sublist_iff hnodup).mp hd)
  · rintro ⟨hmem, hc, hfirst⟩
    obtain ⟨front, back, rfl⟩ := List.append_of_mem hmem
    refine List.find?_eq_some_iff_append.mpr ⟨hc, front, back, rfl, fun d hd => ?_⟩
    simpa using hfirst d ((pair_sublist_iff hnodup).mpr hd)

/-- A list with one more element is cut at the last element, or before it. -/
theorem concat_eq_append_cons_iff {l front back : List α} {a b : α} :
    l ++ [b] = front ++ a :: back ↔
      l = front ∧ b = a ∧ back = [] ∨ ∃ back', back = back' ++ [b] ∧ l = front ++ a :: back' := by
  rcases List.eq_nil_or_concat' back with rfl | ⟨back, b', rfl⟩
  · simp
  · rw [← List.cons_append, ← List.append_assoc, List.append_singleton_inj]
    simp [and_comm, @eq_comm _ b b']

/-- An element goes in between two lists. -/
theorem insertIdx_length_append (front back : List α) (a : α) :
    (front ++ back).insertIdx front.length a = front ++ a :: back := by
  induction front with
  | nil => rfl
  | cons b front ih => exact congrArg (b :: ·) ih

/-! ## First occurrences -/

section EraseDups

variable [BEq α] [LawfulBEq α]

theorem eraseDups_concat (l : List α) (a : α) :
    (l ++ [a]).eraseDups = if a ∈ l then l.eraseDups else l.eraseDups ++ [a] := by
  rw [List.eraseDups_append]
  by_cases h : a ∈ l <;> simp [List.removeAll, List.eraseDups_cons, h]

theorem eraseDups_of_nodup {l : List α} (h : l.Nodup) : l.eraseDups = l := by
  induction l using List.reverseRecOn with
  | nil => rfl
  | append_singleton l a ih =>
    rw [List.nodup_append] at h
    have hnew : a ∉ l := fun hmem => h.2.2 a hmem a (by simp) rfl
    rw [eraseDups_concat, if_neg hnew, ih h.1]

end EraseDups

end KeyChord
