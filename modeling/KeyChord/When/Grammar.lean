import KeyChord.When.Expr
import KeyChord.When.Token

/-!
# The grammar of when-clauses

    or    := and ("||" and)*
    and   := unary ("&&" unary)*
    unary := "!" unary | "(" or ")" | word [("==" | "!=") value]
    value := string | number | word

`||` and `&&` form chains in the same way, so that the first two rules are one with the operator as
a parameter. A derivation is a tree over these rules, with one node for each rule that is applied.
It says which tokens it derives, which expression they write, and at what cost: the number of levels
that reading them takes.
-/

namespace KeyChord.When

/-- A value of a comparison as it is written. -/
inductive Literal where
  /-- A string between quotes. -/
  | string (text : String)
  /-- A number. -/
  | number (n : Number)
  /-- A word without quotes. -/
  | word (text : String)
  deriving DecidableEq

namespace Literal

/-- The token of the value. -/
def kind : Literal → TokenKind
  | string text => .string text
  | number n => .number n
  | word text => .word text

/-- What is written: `true` and `false` are truth values, and any other word is a string. -/
def value : Literal → Value
  | string text => .string text
  | number n => .number n
  | word text =>
    if text = "true" then .bool true else if text = "false" then .bool false else .string text

end Literal

/-- The operator of a comparison. -/
inductive Comparison where
  /-- The operator `==`. -/
  | equals
  /-- The operator `!=`. -/
  | differs
  deriving DecidableEq

namespace Comparison

/-- The token of the operator. -/
def kind : Comparison → TokenKind
  | equals => .equals
  | differs => .differs

/-- The comparison of a key with a value. -/
def expr : Comparison → String → Value → Expr
  | equals => .equals
  | differs => .differs

end Comparison

/-- The operator of a chain. -/
inductive Connective where
  /-- The operator `||`. -/
  | or
  /-- The operator `&&`. -/
  | and
  deriving DecidableEq

namespace Connective

/-- The token of the operator. -/
def kind : Connective → TokenKind
  | or => .or
  | and => .and

/-- The expression of two operands. -/
def expr : Connective → Expr → Expr → Expr
  | or => .or
  | and => .and

end Connective

/-- What some tokens can be derived as. -/
inductive Category where
  /-- A chain of an operator. -/
  | chain (c : Connective)
  /-- A negation, a group, a comparison or a key. -/
  | unary
  deriving DecidableEq

/-- What the operands of a chain are: `&&` binds tighter than `||`. -/
def Connective.operand : Connective → Category
  | or => .chain and
  | and => .unary

mutual

/-- A derivation of some tokens. -/
inductive Derivation : Category → Type where
  /-- An operand and further links. -/
  | chain {c : Connective} (first : Derivation c.operand) (links : Links c) :
    Derivation (.chain c)
  /-- `!` and what it negates. -/
  | not (inner : Derivation .unary) : Derivation .unary
  /-- A chain of `||` between parentheses. -/
  | group (inner : Derivation (.chain .or)) : Derivation .unary
  /-- A key alone. -/
  | key (key : String) : Derivation .unary
  /-- A key, an operator and a value. -/
  | comparison (key : String) (operator : Comparison) (value : Literal) : Derivation .unary

/-- The links of a chain after its first operand. -/
inductive Links : Connective → Type where
  /-- No further link. -/
  | nil {c : Connective} : Links c
  /-- The operator, an operand and further links. -/
  | cons {c : Connective} (operand : Derivation c.operand) (links : Links c) : Links c

end

mutual

/-- The tokens of a derivation, in order. -/
def Derivation.kinds : {category : Category} → Derivation category → List TokenKind
  | _, .chain first links => first.kinds ++ links.kinds
  | _, .not inner => .not :: inner.kinds
  | _, .group inner => .openParen :: (inner.kinds ++ [.closeParen])
  | _, .key key => [.word key]
  | _, .comparison key operator value => [.word key, operator.kind, value.kind]

/-- The tokens of the links of a chain, in order. -/
def Links.kinds : {c : Connective} → Links c → List TokenKind
  | _, .nil => []
  | c, .cons operand links => c.kind :: (operand.kinds ++ links.kinds)

end

mutual

/-- The expression that is derived. Parentheses leave no trace in it. -/
def Derivation.expr : {category : Category} → Derivation category → Expr
  | _, .chain first links => links.expr first.expr
  | _, .not inner => .not inner.expr
  | _, .group inner => inner.expr
  | _, .key key => .key key
  | _, .comparison key operator value => operator.expr key value.value

/-- The expression of a chain, of which the operands at the left make up the given one. Chains group
to the left. -/
def Links.expr : {c : Connective} → Links c → Expr → Expr
  | _, .nil, left => left
  | c, .cons operand links, left => links.expr (c.expr left operand.expr)

end

mutual

/-- The number of levels that reading a derivation takes: one for each `!` and each parenthesis
around a place, and one for each operator that stands before it in its chain. -/
def Derivation.cost : {category : Category} → Derivation category → Nat
  | _, .chain first links => max first.cost links.cost
  | _, .not inner => inner.cost + 1
  | _, .group inner => inner.cost + 1
  | _, .key _ => 0
  | _, .comparison _ _ _ => 0

/-- The number of levels that reading the links of a chain takes. -/
def Links.cost : {c : Connective} → Links c → Nat
  | _, .nil => 0
  | _, .cons operand links => max operand.cost links.cost + 1

end

/-- The operands of the links of a chain, in order. -/
def Links.operands : {c : Connective} → Links c → List (Derivation c.operand)
  | _, .nil => []
  | _, .cons operand links => operand :: links.operands

/-- The cost of the links of a chain is the greatest that one of their operands needs: its own and
one level for each operator before it. -/
theorem Links.cost_le_iff {c : Connective} (links : Links c) (n : Nat) :
    links.cost ≤ n ↔ ∀ (i : Nat) (operand : Derivation c.operand),
      links.operands[i]? = some operand → i + 1 + operand.cost ≤ n := by
  match links with
  | .nil => simp [Links.cost, Links.operands]
  | .cons first links =>
    rw [Links.cost, Links.operands]
    cases n with
    | zero =>
      refine iff_of_false (by omega) fun h => ?_
      have := h 0 first rfl
      omega
    | succ n =>
      rw [Nat.add_le_add_iff_right, Nat.max_le, links.cost_le_iff n]
      constructor
      · rintro ⟨hfirst, hlinks⟩ i operand hi
        cases i with
        | zero =>
          cases hi
          omega
        | succ i =>
          have := hlinks i operand hi
          omega
      · refine fun h => ⟨?_, fun i operand hi => ?_⟩
        · have := h 0 first rfl
          omega
        · have := h (i + 1) operand hi
          omega

/-- The cost of a chain is the greatest that one of its operands needs: its own and one level for
each operator before it. -/
theorem Derivation.cost_chain_le_iff {c : Connective} (first : Derivation c.operand)
    (links : Links c) (n : Nat) :
    (chain first links).cost ≤ n ↔ ∀ (i : Nat) (operand : Derivation c.operand),
      (first :: links.operands)[i]? = some operand → i + operand.cost ≤ n := by
  rw [cost, Nat.max_le, links.cost_le_iff]
  constructor
  · rintro ⟨hfirst, hlinks⟩ i operand hi
    cases i with
    | zero =>
      cases hi
      omega
    | succ i => exact hlinks i operand hi
  · refine fun h => ⟨?_, fun i operand hi => h (i + 1) operand hi⟩
    have := h 0 first rfl
    omega

end KeyChord.When
