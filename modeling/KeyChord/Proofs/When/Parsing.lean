import KeyChord.Proofs.When.Lexing
import KeyChord.When.Clause
import KeyChord.When.Grammar
import Mathlib.Tactic.SplitIfs

/-!
# The parser and the grammar

The parser reads what the grammar derives, as far as its levels suffice, and nothing else.

The parser has a function for each category of the grammar and one for the links of each chain;
`Category.parse` and `Connective.parseLinks` name them, so that both chains are treated as one. A
function stops where the tokens do not go on, which `Category.Ends` says.

* `Derivation.parse_append`: the parser reads the tokens of a derivation, and it runs out of levels
  exactly if the cost exceeds them.
* `derives_of_parse`: whatever the parser reads has a derivation.
* `Derivation.eq_of_kinds_append_eq`: it has only one.

The main statement is `parse_of_tokenize`.
-/

namespace KeyChord.When

/-- The function of the parser for a category. -/
def Category.parse : Category → Nat → List Token → Parsed
  | chain .or => parseOr
  | chain .and => parseAnd
  | unary => parseUnary

/-- The function of the parser for the links of a chain. -/
def Connective.parseLinks : Connective → Nat → Expr → List Token → Parsed
  | or => parseOrLinks
  | and => parseAndLinks

/-- The kinds of tokens with which something of the category would go on. -/
def Category.Continues : Category → TokenKind → Prop
  | chain .or, kind => kind = .or ∨ kind = .and ∨ kind = .equals ∨ kind = .differs
  | chain .and, kind => kind = .and ∨ kind = .equals ∨ kind = .differs
  | unary, kind => kind = .equals ∨ kind = .differs

/-- Something of the category ends before these tokens: the first of them does not go on. -/
def Category.Ends (category : Category) (kinds : List TokenKind) : Prop :=
  ∀ kind ∈ kinds.head?, ¬category.Continues kind

variable {category : Category} {c : Connective} {kinds : List TokenKind}

/-! ## Where things end -/

/-- Everything ends where there are no more tokens. -/
theorem ends_nil (category : Category) : category.Ends [] := by
  intro kind hkind
  cases hkind

/-- A closing parenthesis ends everything. -/
theorem ends_closeParen (category : Category) (kinds : List TokenKind) :
    category.Ends (.closeParen :: kinds) := by
  rintro kind ⟨⟩
  rcases category with (- | -) | - <;> simp [Category.Continues]

/-- A chain goes on with its operator, and as its last operand does. -/
theorem continues_chain_iff {kind : TokenKind} :
    (Category.chain c).Continues kind ↔ kind = c.kind ∨ c.operand.Continues kind := by
  cases c <;> rfl

/-- Where a chain ends, its last operand ends too. -/
theorem Category.Ends.operand (h : (Category.chain c).Ends kinds) : c.operand.Ends kinds :=
  fun kind hkind hcontinues => h kind hkind (continues_chain_iff.mpr (Or.inr hcontinues))

/-- A chain does not end before its operator. -/
theorem Category.Ends.kind_ne {tokens : List Token}
    (h : (Category.chain c).Ends (tokens.map Token.kind)) :
    ∀ token ∈ tokens.head?, token.kind ≠ c.kind := by
  intro token htoken hkind
  refine h token.kind ?_ (continues_chain_iff.mpr (Or.inl hkind))
  rw [List.head?_map, Option.mem_def.mp htoken]
  rfl

/-- An operand ends before the operator of its chain. -/
theorem operand_ends_kind (c : Connective) (kinds : List TokenKind) :
    c.operand.Ends (c.kind :: kinds) := by
  rintro kind ⟨⟩
  cases c <;> simp [Connective.operand, Connective.kind, Category.Continues]

/-- An operand ends before the links of its chain, if the chain ends after them. -/
theorem Links.operand_ends (links : Links c) (h : (Category.chain c).Ends kinds) :
    c.operand.Ends (links.kinds ++ kinds) := by
  cases links with
  | nil => exact h.operand
  | cons operand links => exact operand_ends_kind c _

/-! ## The functions of the parser -/

section Parser

variable {levels : Nat} {left : Expr} {token : Token} {tokens : List Token}

/-- A chain is an operand and further links. -/
theorem parse_chain (c : Connective) (levels : Nat) (tokens : List Token) :
    (Category.chain c).parse levels tokens =
      match c.operand.parse levels tokens with
      | .error e => .error e
      | .ok (left, rest) => c.parseLinks levels left rest := by
  cases c with
  | or => exact parseOr.eq_1 levels tokens
  | and => exact parseAnd.eq_1 levels tokens

/-- A chain stops before everything but its operator. -/
theorem parseLinks_of_ne (h : ∀ token ∈ tokens.head?, token.kind ≠ c.kind) :
    c.parseLinks levels left tokens = .ok (left, tokens) := by
  have hne : ∀ offset rest, tokens ≠ ⟨c.kind, offset⟩ :: rest := by
    rintro offset rest rfl
    exact h _ rfl rfl
  cases c with
  | or => exact parseOrLinks.eq_3 levels left tokens hne
  | and => exact parseAndLinks.eq_3 levels left tokens hne

/-- A link takes a level, and there may be none. -/
theorem parseLinks_zero (h : token.kind = c.kind) :
    c.parseLinks 0 left (token :: tokens) = .error .tooDeep := by
  obtain ⟨kind, offset⟩ := token
  subst h
  cases c with
  | or => exact parseOrLinks.eq_1 left offset tokens
  | and => exact parseAndLinks.eq_1 left offset tokens

/-- A link takes a level for its operand and all that follows. -/
theorem parseLinks_succ (h : token.kind = c.kind) :
    c.parseLinks (levels + 1) left (token :: tokens) =
      match c.operand.parse levels tokens with
      | .error e => .error e
      | .ok (right, rest) => c.parseLinks levels (c.expr left right) rest := by
  obtain ⟨kind, offset⟩ := token
  subst h
  cases c with
  | or => exact parseOrLinks.eq_2 left offset tokens levels
  | and => exact parseAndLinks.eq_2 left offset tokens levels

/-- A key that ends is read as one. -/
theorem parseComparison_of_ends {key : String} {offset : Nat}
    (h : Category.unary.Ends (tokens.map Token.kind)) :
    parseComparison key offset tokens = .ok (.key key, tokens) := by
  cases tokens with
  | nil => rfl
  | cons token tokens =>
    have hne := h token.kind rfl
    rw [Category.Continues, not_or] at hne
    rw [parseComparison]
    split
    · next hkind => exact absurd hkind hne.1
    · next hkind => exact absurd hkind hne.2
    · rfl

/-- A value that is written is read. -/
theorem parseValue_of_kind {offset : Nat} {value : Literal} (h : token.kind = value.kind) :
    parseValue offset (token :: tokens) = .ok (value.value, tokens) := by
  rw [parseValue, h]
  cases value with
  | string text => rfl
  | number n => rfl
  | word text =>
    simp only [Literal.kind, Literal.value]
    split_ifs <;> rfl

/-- A comparison that is written is read. -/
theorem parseComparison_of_kind {key : String} {offset : Nat} {operator : Comparison}
    {value : Literal} {token' : Token} (h : token.kind = operator.kind)
    (h' : token'.kind = value.kind) :
    parseComparison key offset (token :: token' :: tokens) =
      .ok (operator.expr key value.value, tokens) := by
  rw [parseComparison, h]
  cases operator <;> simp only [Comparison.kind, Comparison.expr, parseValue_of_kind h'] <;> rfl

end Parser

/-! ## Whatever is derived is read -/

/-- The tokens of some kinds begin with a token of the first kind. -/
theorem exists_of_map_kind_eq_cons {tokens : List Token} {kind : TokenKind}
    (h : tokens.map Token.kind = kind :: kinds) :
    ∃ offset rest, tokens = ⟨kind, offset⟩ :: rest ∧ rest.map Token.kind = kinds := by
  obtain ⟨⟨_, offset⟩, rest, rfl, rfl, hrest⟩ := List.map_eq_cons_iff.mp h
  exact ⟨offset, rest, rfl, hrest⟩

mutual

/-- The parser reads the tokens of a derivation where they end, if the levels suffice for its cost;
otherwise it runs out of levels. -/
theorem Derivation.parse_append {category : Category} (d : Derivation category) (levels : Nat)
    {tokens rest : List Token} (htokens : tokens.map Token.kind = d.kinds)
    (hrest : category.Ends (rest.map Token.kind)) :
    category.parse levels (tokens ++ rest) =
      if d.cost ≤ levels then .ok (d.expr, rest) else .error .tooDeep := by
  -- The recursion is on the derivation. The tokens behind it vary: inside parentheses, the closing
  -- one is the first of them.
  match d with
  | .chain first links =>
    rw [Derivation.kinds] at htokens
    obtain ⟨front, back, rfl, hfront, hback⟩ := List.map_eq_append_iff.mp htokens
    have hends := links.operand_ends hrest
    rw [← hback, ← List.map_append] at hends
    rw [parse_chain, List.append_assoc, first.parse_append levels hfront hends,
      Derivation.cost, Derivation.expr]
    by_cases hfirst : first.cost ≤ levels
    · -- The first operand gives all its levels back, so that the links start from the same number.
      simp only [Nat.max_le, hfirst, true_and]
      exact links.parse_append levels first.expr hback hrest
    · rw [if_neg hfirst, if_neg fun h => hfirst (Nat.max_le.mp h).1]
  | .not inner =>
    obtain ⟨offset, tokens, rfl, hinner⟩ := exists_of_map_kind_eq_cons htokens
    rw [List.cons_append, Derivation.cost, Derivation.expr, Category.parse]
    cases levels with
    | zero => rw [parseUnary, if_neg (Nat.not_succ_le_zero _)]
    | succ levels =>
      have hparse := inner.parse_append levels hinner hrest
      rw [Category.parse] at hparse
      rw [parseUnary, hparse]
      by_cases hcost : inner.cost ≤ levels
      · rw [if_pos hcost, if_pos (Nat.succ_le_succ hcost)]
        rfl
      · rw [if_neg hcost, if_neg (hcost ∘ Nat.le_of_succ_le_succ)]
        rfl
  | .group inner =>
    obtain ⟨offset, tokens, rfl, hinside⟩ := exists_of_map_kind_eq_cons htokens
    obtain ⟨front, back, rfl, hfront, hback⟩ := List.map_eq_append_iff.mp hinside
    obtain ⟨offset', back, rfl, hnil⟩ := exists_of_map_kind_eq_cons hback
    obtain rfl := List.map_eq_nil_iff.mp hnil
    rw [List.cons_append, List.append_assoc, List.singleton_append, Derivation.cost,
      Derivation.expr, Category.parse]
    cases levels with
    | zero => rw [parseUnary, if_neg (Nat.not_succ_le_zero _)]
    | succ levels =>
      have hends : (Category.chain .or).Ends
          ((⟨.closeParen, offset'⟩ :: rest : List Token).map Token.kind) := ends_closeParen _ _
      have hparse := inner.parse_append levels hfront hends
      rw [Category.parse] at hparse
      rw [parseUnary, hparse]
      by_cases hcost : inner.cost ≤ levels
      · rw [if_pos hcost, if_pos (Nat.succ_le_succ hcost)]
        rfl
      · rw [if_neg hcost, if_neg (hcost ∘ Nat.le_of_succ_le_succ)]
  | .key key =>
    obtain ⟨offset, tokens, rfl, hnil⟩ := exists_of_map_kind_eq_cons htokens
    obtain rfl := List.map_eq_nil_iff.mp hnil
    rw [List.singleton_append, Category.parse, parseUnary, parseComparison_of_ends hrest,
      Derivation.cost, if_pos (Nat.zero_le _), Derivation.expr]
  | .comparison key operator value =>
    obtain ⟨offset, tokens, rfl, hback⟩ := exists_of_map_kind_eq_cons htokens
    obtain ⟨offset', tokens, rfl, hvalue⟩ := exists_of_map_kind_eq_cons hback
    obtain ⟨offset'', tokens, rfl, hnil⟩ := exists_of_map_kind_eq_cons hvalue
    obtain rfl := List.map_eq_nil_iff.mp hnil
    rw [List.cons_append, List.cons_append, List.singleton_append, Category.parse, parseUnary,
      parseComparison_of_kind rfl rfl, Derivation.cost, if_pos (Nat.zero_le _),
      Derivation.expr]

/-- The parser reads the links of a chain where it ends, if the levels suffice for their cost;
otherwise it runs out of levels. -/
theorem Links.parse_append {c : Connective} (links : Links c) (levels : Nat) (left : Expr)
    {tokens rest : List Token} (htokens : tokens.map Token.kind = links.kinds)
    (hrest : (Category.chain c).Ends (rest.map Token.kind)) :
    c.parseLinks levels left (tokens ++ rest) =
      if links.cost ≤ levels then .ok (links.expr left, rest) else .error .tooDeep := by
  match links with
  | .nil =>
    obtain rfl := List.map_eq_nil_iff.mp htokens
    rw [List.nil_append, parseLinks_of_ne hrest.kind_ne, Links.cost, if_pos (Nat.zero_le _),
      Links.expr]
  | .cons operand links =>
    rw [Links.kinds] at htokens
    obtain ⟨offset, tokens, rfl, hlinks⟩ := exists_of_map_kind_eq_cons htokens
    obtain ⟨front, back, rfl, hfront, hback⟩ := List.map_eq_append_iff.mp hlinks
    have hends := links.operand_ends hrest
    rw [← hback, ← List.map_append] at hends
    rw [List.cons_append, Links.cost, Links.expr]
    cases levels with
    | zero => rw [parseLinks_zero rfl, if_neg (Nat.not_succ_le_zero _)]
    | succ levels =>
      rw [parseLinks_succ rfl, List.append_assoc, operand.parse_append levels hfront hends]
      by_cases hoperand : operand.cost ≤ levels
      · simp only [Nat.add_le_add_iff_right, Nat.max_le, hoperand, true_and]
        exact links.parse_append levels _ hback hrest
      · rw [if_neg hoperand, if_neg fun h =>
          hoperand (Nat.max_le.mp (Nat.le_of_add_le_add_right h)).1]

end

/-! ## Whatever is read is derived -/

/-- A value that has been read was written. -/
theorem exists_literal_of_parseValue {offset : Nat} {tokens rest : List Token} {value : Value}
    (h : parseValue offset tokens = .ok (value, rest)) :
    ∃ (literal : Literal) (token : Token),
      tokens = token :: rest ∧ token.kind = literal.kind ∧ literal.value = value := by
  cases tokens with
  | nil => cases h
  | cons token tokens =>
    rw [parseValue] at h
    split at h
    · next text hkind =>
      cases h
      exact ⟨.string text, token, rfl, hkind, rfl⟩
    · next n hkind =>
      cases h
      exact ⟨.number n, token, rfl, hkind, rfl⟩
    · next text hkind =>
      refine ⟨.word text, token, ?_⟩
      rw [Literal.kind, Literal.value]
      split_ifs at h <;> cases h <;> simp_all
    · cases h

/-- The tokens in front of the rest have a derivation of the expression. -/
def Category.Derives (category : Category) (tokens : List Token) (e : Expr) (rest : List Token) :
    Prop :=
  ∃ (d : Derivation category) (front : List Token),
    tokens = front ++ rest ∧ front.map Token.kind = d.kinds ∧ d.expr = e

/-- The tokens in front of the rest are links of a chain, which make the expression at their left
the other expression. -/
def Connective.Derives (c : Connective) (left : Expr) (tokens : List Token) (e : Expr)
    (rest : List Token) : Prop :=
  ∃ (links : Links c) (front : List Token),
    tokens = front ++ rest ∧ front.map Token.kind = links.kinds ∧ links.expr left = e

/-- A key or a comparison that has been read was written. -/
theorem derives_of_parseComparison {key : String} {offset : Nat} {tokens rest : List Token}
    {e : Expr} (h : parseComparison key offset tokens = .ok (e, rest)) :
    Category.unary.Derives (⟨.word key, offset⟩ :: tokens) e rest := by
  -- Both operators are read in the same way.
  have hcomparison : ∀ (operator : Comparison) (token : Token) (tokens : List Token),
      token.kind = operator.kind →
      (parseValue offset tokens).map (fun p => (operator.expr key p.1, p.2)) = .ok (e, rest) →
      Category.unary.Derives (⟨.word key, offset⟩ :: token :: tokens) e rest := by
    intro operator token tokens hkind h
    cases hvalue : parseValue offset tokens with
    | error error =>
      rw [hvalue] at h
      cases h
    | ok p =>
      rw [hvalue] at h
      cases h
      obtain ⟨literal, token', rfl, hkind', hliteral⟩ := exists_literal_of_parseValue hvalue
      refine ⟨.comparison key operator literal, [⟨.word key, offset⟩, token, token'], rfl, ?_, ?_⟩
      · rw [List.map_cons, List.map_cons, List.map_cons, hkind, hkind']
        rfl
      · rw [Derivation.expr, hliteral]
  cases tokens with
  | nil =>
    cases h
    exact ⟨.key key, [⟨.word key, offset⟩], rfl, rfl, rfl⟩
  | cons token tokens =>
    rw [parseComparison] at h
    split at h
    · next hkind => exact hcomparison .equals token tokens hkind h
    · next hkind => exact hcomparison .differs token tokens hkind h
    · cases h
      exact ⟨.key key, [⟨.word key, offset⟩], rfl, rfl, rfl⟩

/-- A group that has been read was written. -/
theorem derives_of_parseClose {offset : Nat} {tokens middle rest : List Token} {inner e : Expr}
    (hinner : (Category.chain .or).Derives tokens inner middle)
    (h : parseClose inner middle = .ok (e, rest)) :
    Category.unary.Derives (⟨.openParen, offset⟩ :: tokens) e rest := by
  obtain ⟨d, front, rfl, hfront, rfl⟩ := hinner
  cases middle with
  | nil => cases h
  | cons close middle =>
    rw [parseClose] at h
    split_ifs at h with hclose
    cases h
    refine ⟨.group d, ⟨.openParen, offset⟩ :: (front ++ [close]), ?_, ?_, rfl⟩
    · rw [List.cons_append, List.append_assoc, List.singleton_append]
    · rw [List.map_cons, List.map_append, hfront, List.map_singleton, hclose]
      rfl

/-- How far a category is from the bottom of the grammar. -/
def Category.rank : Category → Nat
  | chain .or => 3
  | chain .and => 2
  | unary => 1

/-- An operand is nearer to the bottom of the grammar than its chain. -/
theorem rank_operand_lt (c : Connective) : c.operand.rank < (Category.chain c).rank := by
  cases c <;> decide

mutual

/-- Whatever the parser reads has a derivation. -/
theorem derives_of_parse {category : Category} {levels : Nat} {tokens rest : List Token} {e : Expr}
    (h : category.parse levels tokens = .ok (e, rest)) : category.Derives tokens e rest := by
  -- As in the parser, `!`, parentheses and links lower the levels, and operands keep the levels but
  -- are nearer to the bottom of the grammar.
  match category with
  | .chain c =>
    rw [parse_chain] at h
    split at h
    · cases h
    · next left middle hfirst =>
      have := rank_operand_lt c
      obtain ⟨first, front, rfl, hfront, rfl⟩ := derives_of_parse hfirst
      obtain ⟨links, back, rfl, hback, rfl⟩ := derives_of_parseLinks h
      refine ⟨.chain first links, front ++ back, (List.append_assoc ..).symm, ?_, rfl⟩
      rw [List.map_append, hfront, hback]
      rfl
  | .unary =>
    rw [Category.parse, parseUnary.eq_def] at h
    split at h
    · cases h
    · next offset tokens =>
      split at h
      · cases h
      · next levels =>
        cases hinner : parseUnary levels tokens with
        | error error =>
          rw [hinner] at h
          cases h
        | ok p =>
          rw [hinner] at h
          cases h
          obtain ⟨d, front, rfl, hfront, hexpr⟩ := @derives_of_parse .unary _ _ _ _ hinner
          refine ⟨.not d, ⟨.not, offset⟩ :: front, rfl, ?_, ?_⟩
          · rw [List.map_cons, hfront]
            rfl
          · rw [Derivation.expr, hexpr]
    · next offset tokens =>
      split at h
      · cases h
      · next levels =>
        split at h
        · cases h
        · next inner middle hinner =>
          exact derives_of_parseClose (@derives_of_parse (.chain .or) _ _ _ _ hinner) h
    · exact derives_of_parseComparison h
    · cases h
termination_by (levels, category.rank)

/-- Whatever the parser reads as the links of a chain are such links. -/
theorem derives_of_parseLinks {c : Connective} {levels : Nat} {left : Expr}
    {tokens rest : List Token} {e : Expr} (h : c.parseLinks levels left tokens = .ok (e, rest)) :
    c.Derives left tokens e rest := by
  by_cases hhead : ∃ token ∈ tokens.head?, token.kind = c.kind
  · obtain ⟨token, htoken, hkind⟩ := hhead
    obtain ⟨tokens, rfl⟩ := List.head?_eq_some_iff.mp htoken
    cases levels with
    | zero =>
      rw [parseLinks_zero hkind] at h
      cases h
    | succ levels =>
      rw [parseLinks_succ hkind] at h
      split at h
      · cases h
      · next right middle hoperand =>
        obtain ⟨operand, front, rfl, hfront, rfl⟩ := derives_of_parse hoperand
        obtain ⟨links, back, rfl, hback, rfl⟩ := derives_of_parseLinks h
        refine ⟨.cons operand links, token :: (front ++ back), ?_, ?_, rfl⟩
        · rw [List.cons_append, List.append_assoc]
        · rw [List.map_cons, List.map_append, hkind, hfront, hback]
          rfl
  · rw [parseLinks_of_ne fun token htoken hkind => hhead ⟨token, htoken, hkind⟩] at h
    cases h
    exact ⟨.nil, [], rfl, rfl, rfl⟩
termination_by (levels, 0)

end

/-! ## There is only one derivation -/

/-- Before the operator of a comparison, no key ends. -/
theorem not_unary_ends_comparison (operator : Comparison) (kinds : List TokenKind) :
    ¬Category.unary.Ends (operator.kind :: kinds) := by
  intro h
  refine h operator.kind rfl ?_
  cases operator <;> simp [Category.Continues, Comparison.kind]

/-- A value has only one token, and a token writes only one value. -/
theorem literal_kind_injective {value value' : Literal} (h : value.kind = value'.kind) :
    value = value' := by
  cases value <;> cases value' <;> simp_all [Literal.kind]

/-- An operator has only one token. -/
theorem comparison_kind_injective {operator operator' : Comparison}
    (h : operator.kind = operator'.kind) : operator = operator' := by
  cases operator <;> cases operator' <;> simp_all [Comparison.kind]

mutual

/-- Two derivations of the same tokens that end are the same, and end at the same place. -/
theorem Derivation.eq_of_kinds_append_eq {category : Category} (d d' : Derivation category)
    {rest rest' : List TokenKind} (hrest : category.Ends rest) (hrest' : category.Ends rest')
    (h : d.kinds ++ rest = d'.kinds ++ rest') : d = d' ∧ rest = rest' := by
  -- The first token tells the rule apart, but for a key that may begin a comparison. There it
  -- matters that the derivation ends.
  cases d with
  | chain first links =>
    obtain ⟨first', links'⟩ := d'
    rw [Derivation.kinds, Derivation.kinds, List.append_assoc, List.append_assoc] at h
    obtain ⟨rfl, hlinks⟩ := first.eq_of_kinds_append_eq first' (links.operand_ends hrest)
      (links'.operand_ends hrest') h
    obtain ⟨rfl, rfl⟩ := links.eq_of_kinds_append_eq links' hrest hrest' hlinks
    exact ⟨rfl, rfl⟩
  | not inner =>
    cases d' with
    | not inner' =>
      obtain ⟨rfl, rfl⟩ := inner.eq_of_kinds_append_eq inner' hrest hrest' (List.cons.inj h).2
      exact ⟨rfl, rfl⟩
    | _ => simp [Derivation.kinds] at h
  | group inner =>
    cases d' with
    | group inner' =>
      rw [Derivation.kinds, Derivation.kinds, List.cons_append, List.cons_append,
        List.append_assoc, List.append_assoc] at h
      obtain ⟨rfl, hclose⟩ := inner.eq_of_kinds_append_eq inner' (ends_closeParen _ _)
        (ends_closeParen _ _) (List.cons.inj h).2
      exact ⟨rfl, (List.cons.inj hclose).2⟩
    | _ => simp [Derivation.kinds] at h
  | key key =>
    cases d' with
    | key key' =>
      obtain ⟨hkey, rfl⟩ := List.cons.inj h
      cases hkey
      exact ⟨rfl, rfl⟩
    | comparison key' operator' value' =>
      obtain ⟨-, rfl⟩ := List.cons.inj h
      exact absurd hrest (not_unary_ends_comparison operator' _)
    | _ => simp [Derivation.kinds] at h
  | comparison key operator value =>
    cases d' with
    | key key' =>
      obtain ⟨-, rfl⟩ := List.cons.inj h
      exact absurd hrest' (not_unary_ends_comparison operator _)
    | comparison key' operator' value' =>
      obtain ⟨hkey, htail⟩ := List.cons.inj h
      obtain ⟨hoperator, htail⟩ := List.cons.inj htail
      obtain ⟨hvalue, rfl⟩ := List.cons.inj htail
      cases hkey
      rw [comparison_kind_injective hoperator, literal_kind_injective hvalue]
      exact ⟨rfl, rfl⟩
    | _ => simp [Derivation.kinds] at h

/-- Two derivations of the same links that end are the same, and end at the same place. -/
theorem Links.eq_of_kinds_append_eq {c : Connective} (links links' : Links c)
    {rest rest' : List TokenKind} (hrest : (Category.chain c).Ends rest)
    (hrest' : (Category.chain c).Ends rest') (h : links.kinds ++ rest = links'.kinds ++ rest') :
    links = links' ∧ rest = rest' := by
  match links with
  | .nil =>
    cases links' with
    | nil => exact ⟨rfl, h⟩
    | cons operand' links' =>
      obtain rfl : rest = _ := h
      exact absurd (continues_chain_iff.mpr (Or.inl rfl)) (hrest c.kind rfl)
  | .cons operand links =>
    cases links' with
    | nil =>
      obtain rfl : _ = rest' := h
      exact absurd (continues_chain_iff.mpr (Or.inl rfl)) (hrest' c.kind rfl)
    | cons operand' links' =>
      rw [Links.kinds, Links.kinds, List.cons_append, List.cons_append, List.append_assoc,
        List.append_assoc] at h
      obtain ⟨rfl, hlinks⟩ := operand.eq_of_kinds_append_eq operand' (links.operand_ends hrest)
        (links'.operand_ends hrest') (List.cons.inj h).2
      obtain ⟨rfl, rfl⟩ := links.eq_of_kinds_append_eq links' hrest hrest' hlinks
      exact ⟨rfl, rfl⟩

end

/-- Some tokens have at most one derivation. -/
theorem Derivation.kinds_injective {category : Category} {d d' : Derivation category}
    (h : d.kinds = d'.kinds) : d = d' :=
  (d.eq_of_kinds_append_eq d' (ends_nil _) (ends_nil _) (congrArg (· ++ []) h)).1

/-! ## The parser as a whole -/

/-- One operand without any operator. -/
def Derivation.alone (d : Derivation .unary) : Derivation (.chain .or) :=
  .chain (.chain d .nil) .nil

theorem Derivation.kinds_alone (d : Derivation .unary) : d.alone.kinds = d.kinds := by
  show (d.kinds ++ []) ++ [] = d.kinds
  rw [List.append_nil, List.append_nil]

theorem Derivation.cost_alone (d : Derivation .unary) : d.alone.cost = d.cost := by
  show max (max d.cost 0) 0 = d.cost
  rw [Nat.max_zero, Nat.max_zero]

section Whole

variable {source : String} {tokens : List Token}

/-- No derivation is without tokens. -/
theorem Derivation.kinds_ne_nil {category : Category} (d : Derivation category) :
    d.kinds ≠ [] := by
  cases d with
  | chain first links => exact List.append_ne_nil_of_left_ne_nil first.kinds_ne_nil _
  | _ => exact List.cons_ne_nil _ _

/-- Tokens that have a derivation are parsed, unless it takes too many levels. -/
theorem Derivation.parseTokens_eq (d : Derivation (.chain .or))
    (hd : d.kinds = tokens.map Token.kind) :
    parseTokens tokens = if d.cost ≤ depthLimit then .ok d.expr else .error .tooDeep := by
  have hne : tokens.isEmpty = false := by
    refine List.isEmpty_eq_false_iff.mpr fun hnil => d.kinds_ne_nil ?_
    rw [hd, hnil, List.map_nil]
  have hends : (Category.chain .or).Ends (([] : List Token).map Token.kind) := ends_nil _
  have hparse := d.parse_append depthLimit hd.symm hends
  rw [List.append_nil, Category.parse] at hparse
  rw [parseTokens, hne, hparse]
  by_cases hcost : d.cost ≤ depthLimit
  · rw [if_pos hcost, if_pos hcost]
    rfl
  · rw [if_neg hcost, if_neg hcost]
    rfl

/-- Whatever is parsed has a derivation. -/
theorem exists_derivation_of_parseTokens {e : Expr} (h : parseTokens tokens = .ok e) :
    ∃ d : Derivation (.chain .or),
      d.kinds = tokens.map Token.kind ∧ d.cost ≤ depthLimit ∧ d.expr = e := by
  -- Once there is a derivation of all tokens, its cost follows from how it is parsed.
  obtain ⟨d, hd⟩ : ∃ d : Derivation (.chain .or), d.kinds = tokens.map Token.kind := by
    rw [parseTokens] at h
    split_ifs at h
    split at h
    · cases h
    · next e' hparse =>
      obtain ⟨d, front, rfl, hfront, -⟩ := @derives_of_parse (.chain .or) _ _ _ _ hparse
      exact ⟨d, by rw [List.append_nil, hfront]⟩
    · cases h
  rw [d.parseTokens_eq hd] at h
  split_ifs at h with hcost
  cases h
  exact ⟨d, hd, hcost, rfl⟩

/-- A text that spells the tokens of a derivation is parsed, unless it takes too many levels. -/
theorem Derivation.parse_of_spells (d : Derivation (.chain .or))
    (hd : Spells source.toList d.kinds) :
    parse source = if d.cost ≤ depthLimit then .ok d.expr else .error .tooDeep := by
  obtain ⟨tokens, htokens, hkinds⟩ := spells_iff.mp hd
  rw [parse, htokens]
  exact d.parseTokens_eq hkinds.symm

/-- A text that is parsed spells the tokens of a derivation. -/
theorem exists_derivation_of_parse {e : Expr} (h : parse source = .ok e) :
    ∃ d : Derivation (.chain .or),
      Spells source.toList d.kinds ∧ d.cost ≤ depthLimit ∧ d.expr = e := by
  rw [parse] at h
  cases htokens : tokenize source with
  | error error =>
    rw [htokens] at h
    cases h
  | ok tokens =>
    rw [htokens] at h
    obtain ⟨d, hd, hcost, hexpr⟩ := exists_derivation_of_parseTokens h
    exact ⟨d, spells_iff.mpr ⟨tokens, htokens, hd.symm⟩, hcost, hexpr⟩

/-- The parser follows the grammar, in which `!` binds tighter than `&&` and `&&` tighter than `||`
and chains group to the left. If the tokens of a text have a derivation, the text is parsed to the
expression that is derived, or there are too many levels in it; otherwise there is some error. No
tokens have two derivations. -/
theorem parse_of_tokenize (htokens : tokenize source = .ok tokens) :
    (∀ d : Derivation (.chain .or), d.kinds = tokens.map Token.kind →
        (d.cost ≤ 128 → parse source = .ok d.expr) ∧
          (128 < d.cost → parse source = .error .tooDeep)) ∧
      ((∀ d : Derivation (.chain .or), d.kinds ≠ tokens.map Token.kind) →
        ∃ error, parse source = .error error) ∧
      ∀ d d' : Derivation (.chain .or), d.kinds = tokens.map Token.kind →
        d'.kinds = tokens.map Token.kind → d = d' := by
  have hparse : parse source = parseTokens tokens := by
    rw [parse, htokens]
    rfl
  rw [hparse]
  refine ⟨fun d hd => ?_, fun hnone => ?_, fun d d' hd hd' => ?_⟩
  · rw [d.parseTokens_eq hd]
    exact ⟨fun hcost => if_pos hcost, fun hcost => if_neg (Nat.not_le_of_lt hcost)⟩
  · cases h : parseTokens tokens with
    | error error => exact ⟨error, rfl⟩
    | ok e =>
      obtain ⟨d, hd, -⟩ := exists_derivation_of_parseTokens h
      exact absurd hd (hnone d)
  · exact Derivation.kinds_injective (hd.trans hd'.symm)

/-- The operands of `||` in `a || !b && c == x` are `a` and `!b && c == x`, and `!` takes only
`b`. -/
theorem parse_of_three_operators :
    tokenize "a || !b && c == x" =
        .ok [⟨.word "a", 0⟩, ⟨.or, 2⟩, ⟨.not, 5⟩, ⟨.word "b", 6⟩, ⟨.and, 8⟩, ⟨.word "c", 11⟩,
          ⟨.equals, 13⟩, ⟨.word "x", 16⟩] ∧
      parse "a || !b && c == x" =
        .ok (.or (.key "a") (.and (.not (.key "b")) (.equals "c" (.string "x")))) := by
  have htokens : tokenize "a || !b && c == x" =
      .ok [⟨.word "a", 0⟩, ⟨.or, 2⟩, ⟨.not, 5⟩, ⟨.word "b", 6⟩, ⟨.and, 8⟩, ⟨.word "c", 11⟩,
        ⟨.equals, 13⟩, ⟨.word "x", 16⟩] := by decide +kernel
  let left : Derivation (.chain .and) := .chain (.key "a") .nil
  let right : Derivation (.chain .and) :=
    .chain (.not (.key "b")) (.cons (.comparison "c" .equals (.word "x")) .nil)
  let d : Derivation (.chain .or) := .chain left (.cons right .nil)
  exact ⟨htokens, ((parse_of_tokenize htokens).1 d rfl).1 (by decide)⟩

end Whole

end KeyChord.When
