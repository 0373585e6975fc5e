import KeyChord.Proofs.When.Parsing

/-!
# What stands around a group

Where a group stands in a derivation, another group can stand as well, and what is around them means
the same for both.

The module introduces:

* `Frame`: an expression with a place left open in it, which `Frame.fill` fills.
* `Balanced kinds`: each closing parenthesis among the tokens has its opening one, and the other way
  round. The tokens of every derivation are balanced (`Derivation.balanced`), so that a group among
  them belongs to one operand as a whole (`Balanced.append_eq_append_group`).
* `frame.Encloses category front back own above`: every group can stand between the tokens, and the
  frame is the rest of what is derived then, with so many levels of its own and above the group.

The main statement is `Derivation.exists_frame`: what is around a group is a frame.
-/

namespace KeyChord.When

/-! ## Expressions with a place left open -/

/-- An expression with a place left open in it. -/
inductive Frame where
  /-- The place itself. -/
  | hole
  /-- The place is in what is negated. -/
  | not (inner : Frame)
  /-- The place is in the left operand. -/
  | left (c : Connective) (inner : Frame) (other : Expr)
  /-- The place is in the right operand. -/
  | right (c : Connective) (other : Expr) (inner : Frame)

/-- The expression in which the place is taken by another one. -/
def Frame.fill : Frame → Expr → Expr
  | hole, e => e
  | not inner, e => .not (inner.fill e)
  | left c inner other, e => c.expr (inner.fill e) other
  | right c other inner, e => c.expr other (inner.fill e)

/-- Expressions that hold alike do so in the same place. -/
theorem Frame.eval_fill_congr (frame : Frame) {c : Context} {e e' : Expr}
    (h : e.eval c = e'.eval c) : (frame.fill e).eval c = (frame.fill e').eval c := by
  induction frame with
  | hole => exact h
  | not inner ih => simp [fill, Expr.eval, ih]
  | left connective inner other ih =>
    cases connective <;> simp [fill, Connective.expr, Expr.eval, ih]
  | right connective other inner ih =>
    cases connective <;> simp [fill, Connective.expr, Expr.eval, ih]

/-- The frame of which the place is in the operands before the links. -/
def Links.frame : {c : Connective} → Links c → Frame → Frame
  | _, .nil, frame => frame
  | c, .cons operand links, frame => links.frame (.left c frame operand.expr)

theorem Links.fill_frame : {c : Connective} → (links : Links c) → (frame : Frame) → (e : Expr) →
    (links.frame frame).fill e = links.expr (frame.fill e)
  | _, .nil, _, _ => rfl
  | _, .cons operand links, frame, e => by
    rw [Links.frame, links.fill_frame, Links.expr]
    rfl

/-! ## Balanced parentheses -/

/-- Each closing parenthesis among the tokens has its opening one, and the other way round. -/
structure Balanced (kinds : List TokenKind) : Prop where
  /-- There are as many closing as opening parentheses. -/
  closed : kinds.count .closeParen = kinds.count .openParen
  /-- Up to no place there are more of them. -/
  nested : ∀ front, front <+: kinds → front.count .closeParen ≤ front.count .openParen

theorem Balanced.append {kinds kinds' : List TokenKind} (h : Balanced kinds)
    (h' : Balanced kinds') : Balanced (kinds ++ kinds') where
  closed := by rw [List.count_append, List.count_append, h.closed, h'.closed]
  nested := by
    rintro front ⟨back, hback⟩
    rcases List.append_eq_append_iff.mp hback with ⟨middle, rfl, -⟩ | ⟨middle, rfl, rfl⟩
    · exact h.nested front (List.prefix_append front middle)
    · have hclosed := h.closed
      have hnested := h'.nested middle (List.prefix_append middle back)
      rw [List.count_append, List.count_append]
      omega

theorem Balanced.group {kinds : List TokenKind} (h : Balanced kinds) :
    Balanced (.openParen :: (kinds ++ [.closeParen])) where
  closed := by
    have hclosed := h.closed
    simp
    omega
  nested := by
    intro front hfront
    rcases List.prefix_cons_iff.mp hfront with rfl | ⟨inside, rfl, hinside⟩
    · exact Nat.le_refl _
    · rcases List.prefix_concat_iff.mp hinside with rfl | hinside
      · have hclosed := h.closed
        simp
        omega
      · have hnested := h.nested inside hinside
        simp
        omega

theorem balanced_of_not_mem {kinds : List TokenKind} (hopen : .openParen ∉ kinds)
    (hclose : .closeParen ∉ kinds) : Balanced kinds where
  closed := by rw [List.count_eq_zero.mpr hopen, List.count_eq_zero.mpr hclose]
  nested := by
    intro front hfront
    rw [List.count_eq_zero.mpr fun hmem => hclose (hfront.subset hmem)]
    exact Nat.zero_le _

mutual

/-- The parentheses of a derivation are balanced. -/
theorem Derivation.balanced {category : Category} (d : Derivation category) : Balanced d.kinds := by
  cases d with
  | chain first links => exact first.balanced.append links.balanced
  | not inner =>
    have hnot : Balanced [TokenKind.not] := balanced_of_not_mem (by simp) (by simp)
    exact hnot.append inner.balanced
  | group inner => exact inner.balanced.group
  | key key => exact balanced_of_not_mem (by simp [Derivation.kinds]) (by simp [Derivation.kinds])
  | comparison key operator value =>
    refine balanced_of_not_mem ?_ ?_ <;>
      cases operator <;> cases value <;> simp [Derivation.kinds, Comparison.kind, Literal.kind]

/-- The parentheses of the links of a chain are balanced. -/
theorem Links.balanced : {c : Connective} → (links : Links c) → Balanced links.kinds
  | _, .nil => balanced_of_not_mem List.not_mem_nil List.not_mem_nil
  | c, .cons operand links => by
    have hoperator : Balanced [c.kind] := by
      cases c <;> exact balanced_of_not_mem (by simp [Connective.kind]) (by simp [Connective.kind])
    exact hoperator.append (operand.balanced.append links.balanced)

end

/-- A group is in balanced tokens as a whole, or behind them. -/
theorem Balanced.append_eq_append_group {kinds rest front back : List TokenKind}
    (hkinds : Balanced kinds) (d : Derivation (.chain .or))
    (h : kinds ++ rest = front ++ (d.group.kinds ++ back)) :
    (∃ middle, kinds = front ++ (d.group.kinds ++ middle) ∧ back = middle ++ rest) ∨
      ∃ middle, front = kinds ++ middle ∧ rest = middle ++ (d.group.kinds ++ back) := by
  rcases List.append_eq_append_iff.mp h with hbehind | ⟨start, rfl, hgroup⟩
  · exact Or.inr hbehind
  rcases List.append_eq_append_iff.mp hgroup with ⟨middle, rfl, rfl⟩ | ⟨tail, htail, rfl⟩
  · exact Or.inl ⟨middle, rfl, rfl⟩
  rcases List.prefix_cons_iff.mp ⟨tail, htail.symm⟩ with rfl | ⟨inside, rfl, hinside⟩
  · exact Or.inr ⟨[], by simp, by simpa using htail.symm⟩
  rcases List.prefix_concat_iff.mp hinside with rfl | hinside
  · exact Or.inl ⟨[], by simp [Derivation.kinds], by simpa [Derivation.kinds] using htail⟩
  -- The tokens cannot end inside of the group: there its parenthesis is open, and neither what is
  -- before it nor what is behind it closes more than it opens.
  have hclosed := hkinds.closed
  have hfront := hkinds.nested front (List.prefix_append front _)
  have hinside := d.balanced.nested inside hinside
  simp only [List.count_append, List.count_cons_self] at hclosed
  simp at hclosed
  omega

/-- Tokens with a group among them have an opening parenthesis. -/
theorem openParen_mem_of_eq {kinds front back : List TokenKind} (d : Derivation (.chain .or))
    (h : kinds = front ++ (d.group.kinds ++ back)) : .openParen ∈ kinds := by
  rw [h]
  exact List.mem_append_right front List.mem_cons_self

/-! ## Frames around groups -/

/-- Every group can stand between the tokens, in derivations of which the frame is the rest. Reading
them takes the levels of the frame's own, or those above the group and in it. -/
def Frame.Encloses (frame : Frame) (category : Category) (front back : List TokenKind)
    (own above : Nat) : Prop :=
  ∀ d : Derivation (.chain .or), ∃ whole : Derivation category,
    whole.kinds = front ++ (d.group.kinds ++ back) ∧ whole.expr = frame.fill d.expr ∧
      whole.cost = max own (above + d.cost)

/-- Every group can stand between the tokens, in links after the operands that make up the given
expression. -/
def Frame.EnclosesInLinks (frame : Frame) (c : Connective) (left : Expr)
    (front back : List TokenKind) (own above : Nat) : Prop :=
  ∀ d : Derivation (.chain .or), ∃ links : Links c,
    links.kinds = front ++ (d.group.kinds ++ back) ∧ links.expr left = frame.fill d.expr ∧
      links.cost = max own (above + d.cost)

section Enclosing

variable {frame : Frame} {c : Connective} {front back : List TokenKind} {own above : Nat}

/-- Around a group alone there is nothing. -/
theorem encloses_hole : Frame.hole.Encloses .unary [] [] 0 1 := by
  intro d
  refine ⟨.group d, by simp, rfl, ?_⟩
  rw [Derivation.cost]
  omega

theorem Frame.Encloses.not (h : frame.Encloses .unary front back own above) :
    (Frame.not frame).Encloses .unary (.not :: front) back (own + 1) (above + 1) := by
  intro d
  obtain ⟨inner, hkinds, hexpr, hcost⟩ := h d
  refine ⟨.not inner, ?_, ?_, ?_⟩
  · rw [Derivation.kinds, hkinds]
    rfl
  · rw [Derivation.expr, hexpr]
    rfl
  · rw [Derivation.cost, hcost]
    omega

/-- A group around it leaves no trace in the frame. -/
theorem Frame.Encloses.group (h : frame.Encloses (.chain .or) front back own above) :
    frame.Encloses .unary (.openParen :: front) (back ++ [.closeParen]) (own + 1) (above + 1) := by
  intro d
  obtain ⟨inner, hkinds, hexpr, hcost⟩ := h d
  refine ⟨.group inner, ?_, hexpr, ?_⟩
  · rw [Derivation.kinds, hkinds]
    simp
  · rw [Derivation.cost, hcost]
    omega

/-- The group is in the first operand of a chain. -/
theorem Frame.Encloses.first (h : frame.Encloses c.operand front back own above)
    (links : Links c) : (links.frame frame).Encloses (.chain c) front (back ++ links.kinds)
      (max own links.cost) above := by
  intro d
  obtain ⟨first, hkinds, hexpr, hcost⟩ := h d
  refine ⟨.chain first links, ?_, ?_, ?_⟩
  · rw [Derivation.kinds, hkinds]
    simp
  · rw [Derivation.expr, hexpr, links.fill_frame]
  · rw [Derivation.cost, hcost]
    omega

/-- The group is in a later operand of a chain. -/
theorem Frame.EnclosesInLinks.chain (first : Derivation c.operand)
    (h : frame.EnclosesInLinks c first.expr front back own above) :
    frame.Encloses (.chain c) (first.kinds ++ front) back (max first.cost own) above := by
  intro d
  obtain ⟨links, hkinds, hexpr, hcost⟩ := h d
  refine ⟨.chain first links, ?_, hexpr, ?_⟩
  · rw [Derivation.kinds, hkinds, List.append_assoc]
  · rw [Derivation.cost, hcost]
    omega

/-- The group is in the operand of the first link. -/
theorem Frame.Encloses.operand (h : frame.Encloses c.operand front back own above) (left : Expr)
    (links : Links c) : (links.frame (.right c left frame)).EnclosesInLinks c left
      (c.kind :: front) (back ++ links.kinds) (max own links.cost + 1) (above + 1) := by
  intro d
  obtain ⟨operand, hkinds, hexpr, hcost⟩ := h d
  refine ⟨.cons operand links, ?_, ?_, ?_⟩
  · rw [Links.kinds, hkinds]
    simp
  · rw [Links.expr, hexpr, links.fill_frame]
    rfl
  · rw [Links.cost, hcost]
    omega

/-- The group is in the operand of a later link. -/
theorem Frame.EnclosesInLinks.cons {left : Expr} (operand : Derivation c.operand)
    (h : frame.EnclosesInLinks c (c.expr left operand.expr) front back own above) :
    frame.EnclosesInLinks c left (c.kind :: (operand.kinds ++ front)) back
      (max operand.cost own + 1) (above + 1) := by
  intro d
  obtain ⟨links, hkinds, hexpr, hcost⟩ := h d
  refine ⟨.cons operand links, ?_, hexpr, ?_⟩
  · rw [Links.kinds, hkinds, List.cons_append, List.append_assoc]
  · rw [Links.cost, hcost]
    omega

end Enclosing

mutual

/-- What is around a group in a derivation encloses every other group. -/
theorem Derivation.exists_encloses {category : Category} (whole : Derivation category)
    (d : Derivation (.chain .or)) {front back : List TokenKind}
    (h : whole.kinds = front ++ (d.group.kinds ++ back)) :
    ∃ (frame : Frame) (own above : Nat), frame.Encloses category front back own above := by
  -- The group is in one operand of a chain as a whole, since the operands are balanced.
  cases whole with
  | chain first links =>
    rcases first.balanced.append_eq_append_group d h with
      ⟨middle, hfirst, rfl⟩ | ⟨middle, rfl, hlinks⟩
    · obtain ⟨frame, own, above, hframe⟩ := first.exists_encloses d hfirst
      exact ⟨_, _, _, hframe.first links⟩
    · obtain ⟨frame, own, above, hframe⟩ := links.exists_encloses first.expr d hlinks
      exact ⟨_, _, _, hframe.chain first⟩
  | not inner =>
    cases front with
    | nil => cases (List.cons.inj h).1
    | cons kind front =>
      obtain ⟨rfl, hinner⟩ := List.cons.inj h
      obtain ⟨frame, own, above, hframe⟩ := inner.exists_encloses d hinner
      exact ⟨_, _, _, hframe.not⟩
  | group inner =>
    cases front with
    | nil =>
      -- The first parenthesis belongs to the group, so that nothing is around it.
      have hinner : inner.kinds ++ [.closeParen] = d.kinds ++ .closeParen :: back := by
        simpa [Derivation.kinds] using h
      obtain ⟨-, hback⟩ := inner.eq_of_kinds_append_eq d (ends_closeParen _ _)
        (ends_closeParen _ _) hinner
      obtain rfl : [] = back := (List.cons.inj hback).2
      exact ⟨_, _, _, encloses_hole⟩
    | cons kind front =>
      obtain ⟨rfl, hrest⟩ := List.cons.inj h
      rcases inner.balanced.append_eq_append_group d hrest with
        ⟨middle, hinner, rfl⟩ | ⟨middle, rfl, hclose⟩
      · obtain ⟨frame, own, above, hframe⟩ := inner.exists_encloses d hinner
        exact ⟨_, _, _, hframe.group⟩
      · -- There is no group in the parenthesis that ends this one.
        have hmem := openParen_mem_of_eq d hclose
        simp at hmem
  | key key =>
    have hmem := openParen_mem_of_eq d h
    simp [Derivation.kinds] at hmem
  | comparison key operator value =>
    have hmem := openParen_mem_of_eq d h
    cases operator <;> cases value <;>
      simp [Derivation.kinds, Comparison.kind, Literal.kind] at hmem

/-- What is around a group in the links of a chain encloses every other group. -/
theorem Links.exists_encloses {c : Connective} (links : Links c) (left : Expr)
    (d : Derivation (.chain .or)) {front back : List TokenKind}
    (h : links.kinds = front ++ (d.group.kinds ++ back)) :
    ∃ (frame : Frame) (own above : Nat), frame.EnclosesInLinks c left front back own above := by
  match links with
  | .nil => simp [Links.kinds, Derivation.kinds] at h
  | .cons operand links =>
    cases front with
    | nil => cases c <;> cases (List.cons.inj h).1
    | cons kind front =>
      obtain ⟨rfl, hrest⟩ := List.cons.inj h
      rcases operand.balanced.append_eq_append_group d hrest with
        ⟨middle, hoperand, rfl⟩ | ⟨middle, rfl, hlinks⟩
      · obtain ⟨frame, own, above, hframe⟩ := operand.exists_encloses d hoperand
        exact ⟨_, _, _, hframe.operand left links⟩
      · obtain ⟨frame, own, above, hframe⟩ :=
          links.exists_encloses (c.expr left operand.expr) d hlinks
        exact ⟨_, _, _, hframe.cons operand⟩

end

/-- What is around a group in a derivation is a frame: it encloses every other group, and filled
with what the group says it is what the derivation says. It has no more levels of its own than the
derivation takes. -/
theorem Derivation.exists_frame {category : Category} (whole : Derivation category)
    (d : Derivation (.chain .or)) {front back : List TokenKind}
    (h : whole.kinds = front ++ (d.group.kinds ++ back)) :
    ∃ (frame : Frame) (own above : Nat), frame.Encloses category front back own above ∧
      whole.expr = frame.fill d.expr ∧ own ≤ whole.cost := by
  obtain ⟨frame, own, above, hframe⟩ := whole.exists_encloses d h
  refine ⟨frame, own, above, hframe, ?_⟩
  -- There is no other derivation of the same tokens.
  obtain ⟨same, hkinds, hexpr, hcost⟩ := hframe d
  rw [← h] at hkinds
  obtain rfl := Derivation.kinds_injective hkinds
  exact ⟨hexpr, hcost ▸ Nat.le_max_left _ _⟩

end KeyChord.When
