import Mathlib.Data.List.Forall2

/-!
# Steps that can fail

What two steps after one another give, or a step for each entry of a list: they succeed if each of
them does, and fail with the first error. Steps may also change a world.
-/

namespace KeyChord

/-- Two steps succeed exactly if the first does and then the second. -/
theorem bind_eq_ok_iff {α β ε : Type} {x : Except ε α} {f : α → Except ε β} {b : β} :
    x >>= f = .ok b ↔ ∃ a, x = .ok a ∧ f a = .ok b := by
  cases x with
  | error error => exact iff_of_false (fun h => (by cases h)) fun ⟨_, h, _⟩ => (by cases h)
  | ok a =>
    constructor
    · exact fun h => ⟨a, rfl, h⟩
    · rintro ⟨_, ⟨⟩, h⟩
      exact h

/-- Two steps fail exactly if the first fails, or the second does after it. -/
theorem bind_eq_error_iff {α β ε : Type} {x : Except ε α} {f : α → Except ε β} {error : ε} :
    x >>= f = .error error ↔ x = .error error ∨ ∃ a, x = .ok a ∧ f a = .error error := by
  cases x with
  | error error' =>
    show Except.error error' = Except.error error ↔ _
    simp
  | ok a =>
    show f a = Except.error error ↔ _
    simp

/-- What a step succeeds with is the same with other errors. -/
theorem mapError_eq_ok_iff {α ε ε' : Type} {x : Except ε α} {f : ε → ε'} {a : α} :
    x.mapError f = .ok a ↔ x = .ok a := by
  cases x with
  | error error => exact iff_of_false nofun nofun
  | ok a' =>
    show Except.ok a' = Except.ok a ↔ _
    simp

/-- A step with other errors fails exactly if the step does. -/
theorem mapError_eq_error_iff {α ε ε' : Type} {x : Except ε α} {f : ε → ε'} {error' : ε'} :
    x.mapError f = .error error' ↔ ∃ error, x = .error error ∧ error' = f error := by
  cases x with
  | error error =>
    show Except.error (f error) = Except.error error' ↔ _
    simp [eq_comm]
  | ok a => exact iff_of_false nofun nofun

/-- A step succeeds exactly if nothing is wrong with it. -/
theorem exists_eq_ok_iff {α ε : Type} {x : Except ε α} {fault? : Option ε}
    (hfault : ∀ error, x = .error error ↔ fault? = some error) :
    (∃ a, x = .ok a) ↔ fault? = none := by
  rw [Option.eq_none_iff_forall_ne_some]
  simp only [ne_eq, ← hfault]
  cases x <;> simp

/-- A list is made entry by entry if each entry gives an element. -/
theorem mapM_eq_ok_iff {α β ε : Type} {f : α → Except ε β} {l : List α} {l' : List β} :
    l.mapM f = .ok l' ↔ List.Forall₂ (fun a b => f a = .ok b) l l' := by
  induction l generalizing l' with
  | nil =>
    show Except.ok [] = Except.ok l' ↔ _
    simp [eq_comm]
  | cons a l ih =>
    rw [List.mapM_cons, bind_eq_ok_iff]
    constructor
    · rintro ⟨b, hb, hrest⟩
      obtain ⟨rest, htail, heq⟩ := bind_eq_ok_iff.mp hrest
      cases heq
      exact .cons hb (ih.mp htail)
    · rintro (_ | ⟨hb, htail⟩)
      exact ⟨_, hb, bind_eq_ok_iff.mpr ⟨_, ih.mpr htail, rfl⟩⟩

/-- Making a list entry by entry fails with the error of the first entry that has one. -/
theorem mapM_eq_error_iff {α β ε : Type} {f : α → Except ε β} {fault? : α → Option ε}
    (hfault : ∀ a error, f a = .error error ↔ fault? a = some error) {l : List α} {error : ε} :
    l.mapM f = .error error ↔ l.findSome? fault? = some error := by
  induction l with
  | nil =>
    show Except.ok [] = Except.error error ↔ _
    simp
  | cons a l ih =>
    rw [List.mapM_cons, bind_eq_error_iff, List.findSome?_cons]
    cases ha : f a with
    | error error' =>
      rw [(hfault a error').mp ha]
      simp
    | ok b =>
      have hnone : fault? a = none := (exists_eq_ok_iff (hfault a)).mp ⟨b, ha⟩
      rw [hnone]
      show _ ↔ l.findSome? fault? = some error
      rw [← ih]
      -- Once the rest of the list is there, nothing can fail.
      simp only [bind_eq_error_iff]
      simp [pure, Except.pure]

/-- Each element of a list that has been made entry by entry comes from an entry. -/
theorem exists_of_mem_mapM {α β ε : Type} {f : α → Except ε β} {l : List α} {l' : List β}
    (h : l.mapM f = .ok l') : ∀ b ∈ l', ∃ a ∈ l, f a = .ok b := by
  rw [mapM_eq_ok_iff] at h
  induction h with
  | nil => simp
  | @cons a b l l' hb _ ih =>
    refine List.forall_mem_cons.mpr ⟨⟨a, List.mem_cons_self, hb⟩, fun b' hb' => ?_⟩
    obtain ⟨a', ha', hf⟩ := ih b' hb'
    exact ⟨a', List.mem_cons_of_mem a ha', hf⟩

/-! ## Steps in a world -/

section World

variable {α β ε ε' σ : Type} {world world' : σ}

/-- Two steps in a world succeed only if the first does, and the second in the world after it. -/
theorem exists_of_run_bind {x : ExceptT ε (StateM σ) α} {f : α → ExceptT ε (StateM σ) β} {b : β}
    (h : (x >>= f).run.run world = (.ok b, world')) :
    ∃ a world'', x.run.run world = (.ok a, world'') ∧ (f a).run.run world'' = (.ok b, world') := by
  rw [ExceptT.run_bind, StateT.run_bind] at h
  match hrun : x.run.run world with
  | (.ok a, world'') =>
    rw [hrun] at h
    exact ⟨a, world'', rfl, h⟩
  | (.error error, world'') =>
    rw [hrun] at h
    cases congrArg Prod.fst h

/-- What a step in a world succeeds with is the same with other errors. -/
theorem run_of_run_mapError {x : StateM σ (Except ε α)} {f : ε → ε'} {a : α}
    (h : (Except.mapError f <$> x).run world = (.ok a, world')) :
    x.run world = (.ok a, world') := by
  rw [StateT.run_map] at h
  have hresult : (x.run world).1.mapError f = .ok a := congrArg Prod.fst h
  have hworld : (x.run world).2 = world' := congrArg Prod.snd h
  exact Prod.ext (mapError_eq_ok_iff.mp hresult) hworld

end World

end KeyChord
