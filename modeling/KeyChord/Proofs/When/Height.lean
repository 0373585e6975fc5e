import KeyChord.Proofs.When.Parsing
import Mathlib.Tactic.Ring

/-!
# How high parsed expressions are

The levels that the parser counts do not bound the height of the expression. An operator of a chain
takes a level from the operands after it, while in the expression it stands above the operands
before it: these have been read when the operator comes, and it costs them nothing.

* `d.Way charged above`: on the way to one of the keys of `d`, the parser counts `charged` levels,
  and in the expression `above` operators stand above the key. The height of the expression is the
  greatest number of the second kind (`Derivation.height_le_iff`).
* `Category.tallest`: the greatest height that derivations of a cost have (`Derivation.height_le`,
  `exists_parse_of_tallest`).
* `Derivation.EndsDeepest`: no operand of a chain is higher than the last one costs. Then the cost
  does bound the height (`Derivation.height_le_cost`).

The main statement is `height_of_parse`.
-/

namespace KeyChord.When

variable {category : Category} {c : Connective}

/-! ## What stands above a key -/

/-- A way through the derivation to one of its keys, alone or in a comparison: the number of levels
that the parser counts on it, and the number of operators that stand above the key in the
expression. -/
inductive Derivation.Way : {category : Category} → Derivation category → Nat → Nat → Prop where
  | key (key : String) : Way (.key key) 0 0
  | comparison (key : String) (operator : Comparison) (value : Literal) :
    Way (.comparison key operator value) 0 0
  /-- A `!` is a level and an operator. -/
  | not {inner : Derivation .unary} {charged above : Nat} (h : inner.Way charged above) :
    Way (.not inner) (charged + 1) (above + 1)
  /-- A parenthesis is a level, but no operator. -/
  | group {inner : Derivation (.chain .or)} {charged above : Nat} (h : inner.Way charged above) :
    Way (.group inner) (charged + 1) above
  /-- All operators of a chain stand above the first operand, and none of them is counted. -/
  | first {c : Connective} {first : Derivation c.operand} (links : Links c) {charged above : Nat}
    (h : first.Way charged above) :
    Way (.chain first links) charged (above + links.operands.length)
  /-- The operators up to a further operand are counted, but those from there on stand above it. -/
  | link {c : Connective} (first : Derivation c.operand) {links : Links c} {i : Nat}
    {operand : Derivation c.operand} {charged above : Nat}
    (hoperand : links.operands[i]? = some operand) (h : operand.Way charged above) :
    Way (.chain first links) (charged + (i + 1)) (above + (links.operands.length - i))

theorem height_expr (c : Connective) (left right : Expr) :
    (c.expr left right).height = max left.height right.height + 1 := by
  cases c <;> rfl

/-- Each link puts an operator above all that stands before it, and above its own operand. -/
theorem Links.height_le_iff (links : Links c) (left : Expr) (n : Nat) :
    (links.expr left).height ≤ n ↔ left.height + links.operands.length ≤ n ∧
      ∀ (i : Nat) (operand : Derivation c.operand), links.operands[i]? = some operand →
        operand.expr.height + (links.operands.length - i) ≤ n := by
  match links with
  | .nil => simp [Links.expr, Links.operands]
  | .cons first links =>
    rw [Links.expr, links.height_le_iff, height_expr, Links.operands, List.length_cons]
    -- The first link has become part of the left side, so that the others move up by one position.
    constructor
    · rintro ⟨hleft, hlinks⟩
      refine ⟨by omega, fun i operand hi => ?_⟩
      cases i with
      | zero =>
        cases hi
        omega
      | succ i =>
        have := hlinks i operand hi
        omega
    · rintro ⟨hleft, hlinks⟩
      have hfirst := hlinks 0 first rfl
      refine ⟨by omega, fun i operand hi => ?_⟩
      have := hlinks (i + 1) operand hi
      omega

/-- The height of a chain is that of its highest operand, with the operators that stand above it. -/
theorem Links.height_eq_or (links : Links c) (left : Expr) :
    (links.expr left).height = left.height + links.operands.length ∨
      ∃ i operand, links.operands[i]? = some operand ∧
        (links.expr left).height = operand.expr.height + (links.operands.length - i) := by
  obtain ⟨hleft, hlinks⟩ := (links.height_le_iff left _).mp (Nat.le_refl _)
  by_contra hnone
  rw [not_or, not_exists] at hnone
  obtain ⟨hne, hnone⟩ := hnone
  -- Then all ways are shorter than the height.
  have hshorter : (links.expr left).height ≤ (links.expr left).height - 1 := by
    refine (links.height_le_iff left _).mpr ⟨by omega, fun i operand hi => ?_⟩
    have hle := hlinks i operand hi
    have hne' : (links.expr left).height ≠
        operand.expr.height + (links.operands.length - i) := fun heq => hnone i ⟨operand, hi, heq⟩
    omega
  omega

/-- No more operators stand above a key than the expression is high. -/
theorem Derivation.Way.above_le {d : Derivation category} {charged above : Nat}
    (h : d.Way charged above) : above ≤ d.expr.height := by
  induction h with
  | key key => exact Nat.zero_le _
  | comparison key operator value => exact Nat.zero_le _
  | not h ih => exact Nat.succ_le_succ ih
  | group h ih => exact ih
  | @first c first links charged above h ih =>
    have hfirst := ((links.height_le_iff first.expr _).mp (Nat.le_refl _)).1
    exact (Nat.add_le_add_right ih _).trans hfirst
  | @link c first links i operand charged above hoperand h ih =>
    have hlink := ((links.height_le_iff first.expr _).mp (Nat.le_refl _)).2 i operand hoperand
    exact (Nat.add_le_add_right ih _).trans hlink

/-- No more levels are counted on a way than the derivation costs. -/
theorem Derivation.Way.charged_le {d : Derivation category} {charged above : Nat}
    (h : d.Way charged above) : charged ≤ d.cost := by
  induction h with
  | key key => exact Nat.zero_le _
  | comparison key operator value => exact Nat.zero_le _
  | not h ih => exact Nat.succ_le_succ ih
  | group h ih => exact Nat.succ_le_succ ih
  | first links h ih => exact ih.trans (Nat.le_max_left _ _)
  | @link c first links i operand charged above hoperand h ih =>
    have hlink := (links.cost_le_iff _).mp (Nat.le_refl _) i operand hoperand
    rw [Derivation.cost]
    omega

mutual

/-- Some key is as deep as the expression is high. -/
theorem Derivation.exists_way {category : Category} (d : Derivation category) :
    ∃ charged, d.Way charged d.expr.height := by
  cases d with
  | @chain c first links =>
    -- The way goes through the operand that makes the chain as high as it is.
    rcases links.height_eq_or first.expr with hheight | ⟨i, operand, hoperand, hheight⟩
    · obtain ⟨charged, hway⟩ := first.exists_way
      refine ⟨charged, ?_⟩
      rw [Derivation.expr, hheight]
      exact .first links hway
    · obtain ⟨charged, hway⟩ := links.exists_way operand (List.mem_of_getElem? hoperand)
      refine ⟨charged + (i + 1), ?_⟩
      rw [Derivation.expr, hheight]
      exact .link first hoperand hway
  | not inner =>
    obtain ⟨charged, hway⟩ := inner.exists_way
    exact ⟨charged + 1, .not hway⟩
  | group inner =>
    obtain ⟨charged, hway⟩ := inner.exists_way
    exact ⟨charged + 1, .group hway⟩
  | key key => exact ⟨0, .key key⟩
  | comparison key operator value =>
    have hleaf : (Derivation.comparison key operator value).expr.height = 0 := by
      cases operator <;> rfl
    rw [hleaf]
    exact ⟨0, .comparison key operator value⟩

theorem Links.exists_way {c : Connective} (links : Links c) :
    ∀ operand ∈ links.operands, ∃ charged, operand.Way charged operand.expr.height := by
  match links with
  | .nil => simp [Links.operands]
  | .cons operand links =>
    rw [Links.operands, List.forall_mem_cons]
    exact ⟨operand.exists_way, links.exists_way⟩

end

/-- The height of the expression is the greatest number of operators above one of its keys. -/
theorem Derivation.height_le_iff (d : Derivation category) (n : Nat) :
    d.expr.height ≤ n ↔ ∀ charged above, d.Way charged above → above ≤ n := by
  constructor
  · intro hheight charged above hway
    exact hway.above_le.trans hheight
  · intro hways
    obtain ⟨charged, hway⟩ := d.exists_way
    exact hways charged _ hway

/-! ## The greatest height -/

/-- The greatest height of a negation or a group whose cost is `n`. Each level that a group takes
adds two for every level that is left inside it, which hold a chain of `||` whose first operand is a
chain of `&&`. -/
def tallestUnary : Nat → Nat
  | 0 => 0
  | n + 1 => (n + 1) * n + 1

/-- The greatest height of what is derived at the cost of `n`. -/
def Category.tallest : Category → Nat → Nat
  | unary, n => tallestUnary n
  | chain .and, n => tallestUnary n + n
  | chain .or, n => tallestUnary n + n + n

theorem tallest_chain (c : Connective) (n : Nat) :
    (Category.chain c).tallest n = c.operand.tallest n + n := by
  cases c <;> rfl

/-- A level that is taken by parentheses is worth most if another one is left. -/
theorem tallestUnary_add_two (n : Nat) :
    tallestUnary (n + 2) = (Category.chain .or).tallest (n + 1) := by
  simp only [tallestUnary, Category.tallest]
  ring

theorem tallest_or_le (n : Nat) : (Category.chain .or).tallest n ≤ tallestUnary (n + 1) := by
  cases n with
  | zero => decide
  | succ n => rw [tallestUnary_add_two]

theorem tallestUnary_lt_succ (n : Nat) : tallestUnary n < tallestUnary (n + 1) := by
  cases n with
  | zero => decide
  | succ n =>
    rw [tallestUnary_add_two, Category.tallest]
    omega

/-- Each link makes a chain higher by one at most. -/
theorem Links.height_le (links : Links c) {left : Expr} {bound : Nat} (hleft : left.height ≤ bound)
    (hoperands : ∀ operand ∈ links.operands, operand.expr.height ≤ bound) :
    (links.expr left).height ≤ bound + links.operands.length := by
  refine (links.height_le_iff left _).mpr ⟨Nat.add_le_add_right hleft _, fun i operand hi => ?_⟩
  have hoperand := hoperands operand (List.mem_of_getElem? hi)
  omega

/-- Every link costs a level. -/
theorem Links.length_le_cost (links : Links c) : links.operands.length ≤ links.cost := by
  match links with
  | .nil => exact Nat.le_refl 0
  | .cons operand links =>
    have := links.length_le_cost
    rw [Links.operands, List.length_cons, Links.cost]
    omega

mutual

/-- What is derived at a cost is not higher than the greatest height. -/
theorem Derivation.height_le {category : Category} (d : Derivation category) {n : Nat}
    (h : d.cost ≤ n) : d.expr.height ≤ category.tallest n := by
  cases d with
  | @chain c first links =>
    obtain ⟨hfirst, hlinks⟩ := Nat.max_le.mp h
    -- Every operand may take all levels for itself, and there are as many links as levels at most.
    have hlength := links.length_le_cost.trans hlinks
    calc (links.expr first.expr).height
        ≤ c.operand.tallest n + links.operands.length :=
          links.height_le (first.height_le hfirst) (links.operands_height_le hlinks)
      _ ≤ (Category.chain c).tallest n := by
          rw [tallest_chain]
          exact Nat.add_le_add_left hlength _
  | not inner =>
    cases n with
    | zero => exact absurd h (Nat.not_succ_le_zero _)
    | succ n =>
      have hinner := inner.height_le (Nat.le_of_succ_le_succ h)
      exact Nat.succ_le_of_lt (hinner.trans_lt (tallestUnary_lt_succ n))
  | group inner =>
    cases n with
    | zero => exact absurd h (Nat.not_succ_le_zero _)
    | succ n =>
      have hinner := inner.height_le (Nat.le_of_succ_le_succ h)
      exact hinner.trans (tallest_or_le n)
  | key key => exact Nat.zero_le _
  | comparison key operator value =>
    cases operator <;> exact Nat.zero_le _

theorem Links.operands_height_le {c : Connective} (links : Links c) {n : Nat} (h : links.cost ≤ n) :
    ∀ operand ∈ links.operands, operand.expr.height ≤ c.operand.tallest n := by
  match links with
  | .nil => simp [Links.operands]
  | .cons operand links =>
    rw [Links.cost] at h
    rw [Links.operands, List.forall_mem_cons]
    exact ⟨operand.height_le (by omega), links.operands_height_le (by omega)⟩

end

/-! ## An expression of the greatest height -/

/-- An operand that costs nothing. -/
def Connective.leaf : (c : Connective) → Derivation c.operand
  | or => .chain (.key "a") .nil
  | and => .key "a"

/-- Links whose operands cost nothing. -/
def Links.leaves (c : Connective) : Nat → Links c
  | 0 => .nil
  | n + 1 => .cons c.leaf (Links.leaves c n)

/-- A chain in which only the first operand costs anything. -/
def Derivation.extended (first : Derivation c.operand) (n : Nat) : Derivation (.chain c) :=
  .chain first (.leaves c n)

/-- A chain of `||` that begins with a chain of `&&`. -/
def Derivation.enlarged (first : Derivation .unary) (n : Nat) : Derivation (.chain .or) :=
  @extended .or (@extended .and first n) n

/-- A negation, or a group of chains that are as long as the cost allows. -/
def tall : Nat → Derivation .unary
  | 0 => .key "a"
  | 1 => .not (.key "a")
  | n + 2 => .group ((tall (n + 1)).enlarged (n + 1))

namespace Derivation

theorem cost_extended {first : Derivation c.operand} {n : Nat} (h : first.cost = n) :
    (first.extended n).cost = n := by
  have hleaf : c.leaf.cost = 0 := by cases c <;> rfl
  have hleaves : ∀ n, (Links.leaves c n).cost = n := by
    intro n
    induction n with
    | zero => rfl
    | succ n ih => rw [Links.leaves, Links.cost, ih, hleaf, Nat.zero_max]
  rw [extended, cost, h, hleaves, Nat.max_self]

theorem height_extended (first : Derivation c.operand) (n : Nat) :
    (first.extended n).expr.height = first.expr.height + n := by
  have hleaf : c.leaf.expr.height = 0 := by cases c <;> rfl
  have hleaves : ∀ n left, ((Links.leaves c n).expr left).height = left.height + n := by
    intro n
    induction n with
    | zero => exact fun left => rfl
    | succ n ih =>
      intro left
      rw [Links.leaves, Links.expr, ih, height_expr, hleaf, Nat.max_zero]
      omega
  exact hleaves n first.expr

/-- All tokens of the derivation can be written. -/
def IsWritten (d : Derivation category) : Prop :=
  ∀ kind ∈ d.kinds, ∃ lexeme, kind.Written lexeme

theorem isWritten_key : (key "a").IsWritten := by
  intro kind hkind
  obtain rfl := List.mem_singleton.mp hkind
  exact ⟨['a'], .word (by decide) (by simp)⟩

theorem IsWritten.not {inner : Derivation .unary} (h : inner.IsWritten) : (not inner).IsWritten :=
  List.forall_mem_cons.mpr ⟨⟨_, .not⟩, h⟩

theorem IsWritten.group {inner : Derivation (.chain .or)} (h : inner.IsWritten) :
    (group inner).IsWritten := by
  refine List.forall_mem_cons.mpr ⟨⟨_, .openParen⟩, List.forall_mem_append.mpr ⟨h, ?_⟩⟩
  exact List.forall_mem_singleton.mpr ⟨_, .closeParen⟩

theorem IsWritten.extended {first : Derivation c.operand} (h : first.IsWritten) (n : Nat) :
    (first.extended n).IsWritten := by
  have hkind : ∃ lexeme, c.kind.Written lexeme := by
    cases c with
    | or => exact ⟨_, .or⟩
    | and => exact ⟨_, .and⟩
  have hleaf : c.leaf.IsWritten := by cases c <;> exact isWritten_key
  refine List.forall_mem_append.mpr ⟨h, ?_⟩
  induction n with
  | zero => simp [Links.leaves, Links.kinds]
  | succ n ih => exact List.forall_mem_cons.mpr ⟨hkind, List.forall_mem_append.mpr ⟨hleaf, ih⟩⟩

section Enlarged

variable {first : Derivation .unary} {n : Nat}

theorem cost_enlarged (h : first.cost = n) : (first.enlarged n).cost = n :=
  @cost_extended .or _ _ (@cost_extended .and _ _ h)

theorem height_enlarged (h : first.expr.height = tallestUnary n) :
    (first.enlarged n).expr.height = (Category.chain .or).tallest n := by
  have hand := @height_extended .and first n
  have hor := @height_extended .or (@extended .and first n) n
  rw [Category.tallest, ← h]
  exact hor.trans (congrArg (· + n) hand)

theorem IsWritten.enlarged (h : first.IsWritten) : (first.enlarged n).IsWritten :=
  @IsWritten.extended .or _ (@IsWritten.extended .and _ h n) n

end Enlarged

end Derivation

theorem cost_tall (n : Nat) : (tall n).cost = n := by
  induction n using tall.induct with
  | case1 => rfl
  | case2 => rfl
  | case3 n ih => exact congrArg (· + 1) (Derivation.cost_enlarged ih)

theorem height_tall (n : Nat) : (tall n).expr.height = tallestUnary n := by
  induction n using tall.induct with
  | case1 => rfl
  | case2 => rfl
  | case3 n ih =>
    rw [tallestUnary_add_two]
    exact Derivation.height_enlarged ih

theorem isWritten_tall (n : Nat) : (tall n).IsWritten := by
  induction n using tall.induct with
  | case1 => exact Derivation.isWritten_key
  | case2 => exact Derivation.isWritten_key.not
  | case3 n ih => exact ih.enlarged.group

/-! ## When the cost bounds the height -/

/-- No operand of a chain is higher than the last one costs. -/
def Derivation.EndsDeepest : {category : Category} → Derivation category → Prop
  | _, .chain first links =>
    match links.operands.getLast? with
    | none => first.EndsDeepest
    | some last => ∀ operand ∈ first :: links.operands, operand.expr.height ≤ last.cost
  | _, .not inner => inner.EndsDeepest
  | _, .group inner => inner.EndsDeepest
  | _, .key _ => True
  | _, .comparison _ _ _ => True

/-- Where the last operands cost most, the cost bounds the height. -/
theorem Derivation.height_le_cost {category : Category} (d : Derivation category)
    (h : d.EndsDeepest) : d.expr.height ≤ d.cost := by
  cases d with
  | @chain c first links =>
    rw [EndsDeepest] at h
    rw [Derivation.expr, Derivation.cost]
    cases hlast : links.operands.getLast? with
    | none =>
      simp only [hlast] at h
      have halone : links.operands.length = 0 := by simpa using hlast
      have hchain := links.height_le (first.height_le_cost h)
        fun operand hoperand => absurd (List.length_pos_of_mem hoperand) (by omega)
      omega
    | some last =>
      simp only [hlast] at h
      obtain ⟨hfirst, hlinks⟩ := List.forall_mem_cons.mp h
      have hchain := links.height_le hfirst hlinks
      -- The last operand is charged for all links of the chain.
      rw [List.getLast?_eq_getElem?] at hlast
      have hcost := (links.cost_le_iff _).mp (Nat.le_refl _) _ last hlast
      omega
  | not inner => exact Nat.succ_le_succ (inner.height_le_cost h)
  | group inner => exact Nat.le_succ_of_le (inner.height_le_cost h)
  | key key => exact Nat.zero_le _
  | comparison key operator value =>
    cases operator <;> exact Nat.zero_le _

/-! ## Heights of parsed expressions -/

/-- The greatest height is reached. -/
theorem exists_parse_of_tallest : ∃ (source : String) (e : Expr),
    parse source = .ok e ∧ e.height = (Category.chain .or).tallest depthLimit := by
  let d := (tall depthLimit).enlarged depthLimit
  have hcost : d.cost = depthLimit := Derivation.cost_enlarged (cost_tall depthLimit)
  -- The text itself is too long to be looked at; it is enough that its tokens can be written.
  obtain ⟨cs, hspells⟩ := exists_spells (isWritten_tall depthLimit).enlarged
  rw [← @String.toList_ofList cs] at hspells
  refine ⟨String.ofList cs, d.expr, ?_, Derivation.height_enlarged (height_tall depthLimit)⟩
  rw [d.parse_of_spells hspells, hcost]
  exact if_pos (Nat.le_refl depthLimit)

/-- What the parser keeps within 128 are the levels that it counts on the way to each key. The
height of the expression is within 128 exactly if the operators above each key are, which is so if
no operand of a chain is higher than the last one costs; in general the height may be 16513. -/
theorem height_of_parse {source : String} {tokens : List Token} {d : Derivation (.chain .or)}
    {e : Expr} (h : parse source = .ok e) (htokens : tokenize source = .ok tokens)
    (hd : d.kinds = tokens.map Token.kind) :
    (∀ charged above, d.Way charged above → charged ≤ 128) ∧
      (e.height ≤ 128 ↔ ∀ charged above, d.Way charged above → above ≤ 128) ∧
      (d.EndsDeepest → e.height ≤ 128) ∧ e.height ≤ 16513 ∧
      ∃ source' e', parse source' = .ok e' ∧ e'.height = 16513 := by
  have htallest : (Category.chain .or).tallest depthLimit = 16513 := by decide
  rw [d.parse_of_spells (spells_iff.mpr ⟨tokens, htokens, hd.symm⟩)] at h
  split_ifs at h with hcost
  cases h
  refine ⟨fun charged above hway => hway.charged_le.trans hcost, d.height_le_iff 128,
    fun hdeepest => (d.height_le_cost hdeepest).trans hcost, ?_, ?_⟩
  · rw [← htallest]
    exact d.height_le hcost
  · rw [← htallest]
    exact exists_parse_of_tallest

/-- In `!a && !(b || c)`, the last operand costs three levels, and none is higher. -/
theorem height_of_last_group :
    parse "!a && !(b || c)" =
        .ok (.and (.not (.key "a")) (.not (.or (.key "b") (.key "c")))) ∧
      (Expr.and (.not (.key "a")) (.not (.or (.key "b") (.key "c")))).height ≤ 128 := by
  let group : Derivation .unary :=
    .group (.chain (.chain (.key "b") .nil) (.cons (.chain (.key "c") .nil) .nil))
  let d : Derivation (.chain .or) :=
    .chain (.chain (.not (.key "a")) (.cons (.not group) .nil)) .nil
  have htokens : tokenize "!a && !(b || c)" =
      .ok [⟨.not, 0⟩, ⟨.word "a", 1⟩, ⟨.and, 3⟩, ⟨.not, 6⟩, ⟨.openParen, 7⟩, ⟨.word "b", 8⟩,
        ⟨.or, 10⟩, ⟨.word "c", 13⟩, ⟨.closeParen, 14⟩] := by decide +kernel
  have hparse : parse "!a && !(b || c)" =
      .ok (.and (.not (.key "a")) (.not (.or (.key "b") (.key "c")))) := by
    rw [d.parse_of_spells (spells_iff.mpr ⟨_, htokens, rfl⟩)]
    exact if_pos (by decide)
  have hdeepest : d.EndsDeepest := by
    change ∀ operand ∈ [Derivation.not (.key "a"), .not group],
      operand.expr.height ≤ (Derivation.not group).cost
    exact List.forall_mem_cons.mpr ⟨by decide, List.forall_mem_singleton.mpr (by decide)⟩
  exact ⟨hparse, (@height_of_parse _ _ d _ hparse htokens rfl).2.2.1 hdeepest⟩

/-- Negations of a key. -/
def negations : Nat → Derivation .unary
  | 0 => .key "a"
  | n + 1 => .not (negations n)

theorem cost_negations (n : Nat) : (negations n).cost = n := by
  induction n with
  | zero => rfl
  | succ n ih => rw [negations, Derivation.cost, ih]

theorem height_negations (n : Nat) : (negations n).expr.height = n := by
  induction n with
  | zero => rfl
  | succ n ih => rw [negations, Derivation.expr, Expr.height, ih]

/-- A key behind 128 negations is read with all levels, and `&&` still comes above it: the operator
takes its level only from what follows. -/
theorem height_of_first_negations :
    ∃ e, parse (String.ofList (List.replicate 128 '!' ++ ['a', ' ', '&', '&', ' ', 'b'])) = .ok e ∧
      e.height = 129 := by
  let d (n : Nat) : Derivation (.chain .or) :=
    .chain (.chain (negations n) (.cons (.key "b") .nil)) .nil
  -- The negations are spelled one at a time, in place of evaluating the whole text.
  have hspells : ∀ n,
      Spells (List.replicate n '!' ++ ['a', ' ', '&', '&', ' ', 'b']) (d n).kinds := by
    intro n
    induction n with
    | zero =>
      have htokens : tokenize "a && b" = .ok [⟨.word "a", 0⟩, ⟨.and, 2⟩, ⟨.word "b", 5⟩] := by
        decide +kernel
      exact spells_iff.mpr ⟨_, htokens, rfl⟩
    | succ n ih =>
      have hends : ∀ c ∈ (List.replicate n '!' ++ ['a', ' ', '&', '&', ' ', 'b']).head?,
          TokenKind.not.takes c = false := by
        cases n <;> rintro c ⟨⟩ <;> rfl
      have hnot := Spells.token .not hends ih
      exact hnot
  have hcost : (d 128).cost = 128 := by
    change max (max (negations 128).cost 1) 0 = 128
    rw [cost_negations]
    rfl
  have hheight : (d 128).expr.height = 129 := by
    change max (negations 128).expr.height 0 + 1 = 129
    rw [height_negations]
    rfl
  have hspells' := hspells 128
  rw [← @String.toList_ofList (_ ++ _)] at hspells'
  refine ⟨(d 128).expr, ?_, hheight⟩
  rw [(d 128).parse_of_spells hspells', hcost]
  exact if_pos (Nat.le_refl 128)

end KeyChord.When
