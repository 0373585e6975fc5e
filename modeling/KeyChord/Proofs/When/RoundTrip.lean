import KeyChord.Proofs.Number.RoundTrip
import KeyChord.Proofs.When.Lexing
import KeyChord.Proofs.When.Parsing

/-!
# When-clauses survive being written and read

An expression is written with parentheses around each `&&` and `||`. This takes levels that the text
it was read from may not have taken, so that reading the text gives the expression back only if it
needs few enough of them.

* `Expr.derivation`: the derivation of the text of an expression, of which `Expr.need` is the cost.
* `Expr.spells_text`: the text spells the tokens of this derivation.
* `Derivation.word_mem_kinds`: the keys of an expression that has been read are words.

The main statement is `parse_text`.
-/

namespace KeyChord

/-- The value reads back from its text: a number is finite, and a string does not contain the quote
that is put around it. -/
def Value.IsPlain : Value → Prop
  | bool _ => True
  | number n => ∃ negative rank, n = .finite negative rank
  | string s => ∀ c ∈ s.toList, c ≠ '\''

namespace When

namespace Expr

/-- The values of the comparisons, from left to right. -/
def values : Expr → List Value
  | key _ => []
  | not inner => inner.values
  | equals _ value => [value]
  | differs _ value => [value]
  | and left right => left.values ++ right.values
  | or left right => left.values ++ right.values

/-- The number of levels that reading the text of the expression takes: one for each `!`, one for
the parentheses around each `&&` and `||`, and another one for their right operand. -/
def need : Expr → Nat
  | key _ => 0
  | not inner => 1 + inner.need
  | equals _ _ => 0
  | differs _ _ => 0
  | and left right => max (1 + left.need) (2 + right.need)
  | or left right => max (1 + left.need) (2 + right.need)

end Expr

/-- How the text of a value is written. -/
def literalOf : Value → Literal
  | .bool b => .word (if b then "true" else "false")
  | .number n => .number n
  | .string s => .string s

/-- Two operands of one operator. -/
def Connective.pair (c : Connective) (left right : Derivation .unary) : Derivation (.chain .or) :=
  match c with
  | or => .chain (.chain left .nil) (.cons (.chain right .nil) .nil)
  | and => .chain (.chain left (.cons right .nil)) .nil

/-- How the text of an expression is derived. -/
def Expr.derivation : Expr → Derivation .unary
  | key k => .key k
  | not inner => .not inner.derivation
  | equals k value => .comparison k .equals (literalOf value)
  | differs k value => .comparison k .differs (literalOf value)
  | and left right => .group (Connective.and.pair left.derivation right.derivation)
  | or left right => .group (Connective.or.pair left.derivation right.derivation)

/-! ## The derivation of a text -/

section Pair

variable (c : Connective) (left right : Derivation .unary)

theorem expr_pair : (c.pair left right).expr = c.expr left.expr right.expr := by
  cases c <;> rfl

theorem cost_pair : (c.pair left right).cost = max left.cost (right.cost + 1) := by
  cases c with
  | or =>
    change max (max left.cost 0) (max (max right.cost 0) 0 + 1) = _
    omega
  | and =>
    change max (max left.cost (max right.cost 0 + 1)) 0 = _
    omega

theorem kinds_pair : (c.pair left right).kinds = left.kinds ++ c.kind :: right.kinds := by
  cases c with
  | or =>
    change (left.kinds ++ []) ++ .or :: ((right.kinds ++ []) ++ []) = _
    simp [Connective.kind]
  | and =>
    change (left.kinds ++ .and :: (right.kinds ++ [])) ++ [] = _
    simp [Connective.kind]

end Pair

theorem value_literalOf (value : Value) : (literalOf value).value = value := by
  cases value with
  | bool b => cases b <;> rfl
  | number n => rfl
  | string s => rfl

theorem Expr.expr_derivation (e : Expr) : e.derivation.expr = e := by
  induction e with
  | key k => rfl
  | not inner ih => exact congrArg Expr.not ih
  | equals k value => exact congrArg (Expr.equals k) (value_literalOf value)
  | differs k value => exact congrArg (Expr.differs k) (value_literalOf value)
  | and left right ihl ihr | or left right ihl ihr =>
    rw [derivation, Derivation.expr, expr_pair, ihl, ihr]
    rfl

theorem Expr.cost_derivation (e : Expr) : e.derivation.cost = e.need := by
  induction e with
  | key k => rfl
  | not inner ih => rw [derivation, Derivation.cost, need, ih, Nat.add_comm]
  | equals k value => rfl
  | differs k value => rfl
  | and left right ihl ihr | or left right ihl ihr =>
    rw [derivation, Derivation.cost, cost_pair, ihl, ihr, need]
    omega

/-! ## What a text spells -/

/-- The characters spell the tokens wherever a parenthesis or an expression may end. -/
def SpellsInside (cs : List Char) (kinds : List TokenKind) : Prop :=
  ∀ (rest : List Char) (restKinds : List TokenKind), (∀ c ∈ rest.head?, c = ' ' ∨ c = ')') →
    Spells rest restKinds → Spells (cs ++ rest) (kinds ++ restKinds)

theorem spellsInside_of_written {kind : TokenKind} {cs : List Char} (h : kind.Written cs) :
    SpellsInside cs [kind] := fun _ _ hrest hspells =>
  .token h (fun c hc => takes_eq_false kind (hrest c hc)) hspells

section Inside

variable {cs cs' : List Char} {kinds kinds' : List TokenKind}

/-- A space separates tokens. -/
theorem SpellsInside.append (h : SpellsInside cs kinds) (h' : SpellsInside cs' kinds') :
    SpellsInside (cs ++ ' ' :: cs') (kinds ++ kinds') := by
  intro rest restKinds hrest hspells
  rw [List.append_assoc, List.append_assoc]
  refine h _ _ ?_ (.blank (by decide) (h' rest restKinds hrest hspells))
  rintro c ⟨⟩
  exact Or.inl rfl

/-- Parentheses end what is between them, whatever follows. -/
theorem SpellsInside.spells_group (h : SpellsInside cs kinds) {rest : List Char}
    {restKinds : List TokenKind} (hspells : Spells rest restKinds) :
    Spells ('(' :: (cs ++ ')' :: rest)) (.openParen :: (kinds ++ .closeParen :: restKinds)) := by
  have hclose : Spells (')' :: rest) (.closeParen :: restKinds) :=
    .token .closeParen (fun c _ => rfl) hspells
  have hinner := h _ _ (by rintro c ⟨⟩; exact Or.inr rfl) hclose
  have hgroup := Spells.token .openParen (fun c _ => rfl) hinner
  exact hgroup

/-- Parentheses need no spaces around them. -/
theorem SpellsInside.group (h : SpellsInside cs kinds) :
    SpellsInside ('(' :: (cs ++ [')'])) (.openParen :: (kinds ++ [.closeParen])) := by
  intro rest restKinds _ hspells
  simpa using h.spells_group hspells

/-- What follows `!` must not begin with `=`. -/
theorem SpellsInside.not (h : SpellsInside cs kinds) (hhead : ∀ c ∈ cs.head?, c ≠ '=') :
    SpellsInside ('!' :: cs) (.not :: kinds) := by
  intro rest restKinds hrest hspells
  -- What is negated may be empty here, and then the end that follows it does not begin with `=`.
  have hends : ∀ c ∈ (cs ++ rest).head?, TokenKind.not.takes c = false := by
    intro c hc
    rw [TokenKind.takes, beq_eq_false_iff_ne]
    cases cs with
    | nil => rcases hrest c hc with rfl | rfl <;> decide
    | cons d cs => exact hhead c hc
  have hnot := Spells.token .not hends (h rest restKinds hrest hspells)
  exact hnot

/-- An operator stands between spaces. -/
theorem SpellsInside.join (h : SpellsInside cs kinds) (h' : SpellsInside cs' kinds')
    {operator : TokenKind} {mark second : Char} (hoperator : operator.Written [mark, second]) :
    SpellsInside (cs ++ ' ' :: mark :: second :: ' ' :: cs') (kinds ++ operator :: kinds') :=
  h.append ((spellsInside_of_written hoperator).append h')

end Inside

/-- The text of a number is one token. -/
theorem written_text_finite (negative : Bool) (rank : Fin Number.rankLimit) :
    (TokenKind.number (.finite negative rank)).Written
      (Number.finite negative rank).text.toList := by
  have hread := @Number.read?_text (.finite negative rank) (by simp)
  obtain ⟨whole, places, hpositional, -⟩ := Number.exists_isPositional_magnitudeText rank
  obtain ⟨digit, rest, hcons, hdigit⟩ := hpositional.exists_eq_cons
  have hcontinue : ∀ c ∈ digit :: rest, continuesNumber c = true := by
    intro c hc
    rw [← hcons] at hc
    rw [continuesNumber, Bool.or_eq_true, beq_iff_eq]
    exact hpositional.isDigit_or_eq c hc
  rw [Number.toList_text_finite, hcons] at hread ⊢
  -- A minus is the first character of the token; otherwise the first digit is.
  cases negative with
  | false =>
    have hstart : startsNumber digit = true := by rw [startsNumber, hdigit, Bool.true_or]
    exact .number hstart (fun c hc => hcontinue c (List.mem_cons_of_mem _ hc)) hread
  | true => exact .number (by decide) hcontinue hread

/-- The text of a value is one token. -/
theorem written_text {value : Value} (h : value.IsPlain) :
    (literalOf value).kind.Written value.text.toList := by
  cases value with
  | bool b =>
    -- Truth values are written as the words that are read as them.
    have hword : ∀ c cs, startsWord c = true → cs.all continuesWord = true →
        (TokenKind.word (String.ofList (c :: cs))).Written (c :: cs) :=
      fun _ _ hstart hcontinue => .word hstart (List.all_eq_true.mp hcontinue)
    cases b with
    | true => exact hword 't' ['r', 'u', 'e'] (by decide) (by decide)
    | false => exact hword 'f' ['a', 'l', 's', 'e'] (by decide) (by decide)
  | string s =>
    have hquoted := TokenKind.Written.string (Or.inl rfl) h
    rw [String.ofList_toList] at hquoted
    simpa [Value.text, literalOf, Literal.kind] using hquoted
  | number n =>
    obtain ⟨negative, rank, rfl⟩ := h
    exact written_text_finite negative rank

/-- The keys are words. -/
def Expr.HasWords (e : Expr) : Prop :=
  ∀ k, e.Mentions k → (TokenKind.word k).Written k.toList

/-- No text begins with `=`. -/
theorem Expr.head_text_ne {e : Expr} (hwords : e.HasWords) :
    ∀ c ∈ e.text.toList.head?, c ≠ '=' := by
  have hword : ∀ k, (TokenKind.word k).Written k.toList → ∃ c cs, k.toList = c :: cs ∧ c ≠ '=' := by
    intro k h
    generalize k.toList = lexeme at h
    cases h with
    | word hstart => exact ⟨_, _, rfl, ne_of_mem_marks (Or.inl hstart) '=' (by decide)⟩
  cases e with
  | key k | equals k | differs k =>
    obtain ⟨c, cs, hcons, hne⟩ := hword k (hwords k rfl)
    simp [text, hcons, hne]
  | not | and | or => simp [text]

/-- The text of an expression spells its derivation. -/
theorem Expr.spells_text {e : Expr} (hwords : e.HasWords)
    (hvalues : ∀ value ∈ e.values, value.IsPlain) :
    SpellsInside e.text.toList e.derivation.kinds := by
  induction e with
  | key k => exact spellsInside_of_written (hwords k rfl)
  | not inner ih =>
    have hinner := (ih hwords hvalues).not (head_text_ne hwords)
    simpa [text, derivation, Derivation.kinds] using hinner
  | equals k value =>
    have hkey := spellsInside_of_written (hwords k rfl)
    have hvalue := spellsInside_of_written (written_text (hvalues value (by simp [values])))
    have hjoined := hkey.join hvalue .equals
    simpa [text, derivation, Derivation.kinds, Comparison.kind] using hjoined
  | differs k value =>
    have hkey := spellsInside_of_written (hwords k rfl)
    have hvalue := spellsInside_of_written (written_text (hvalues value (by simp [values])))
    have hjoined := hkey.join hvalue .differs
    simpa [text, derivation, Derivation.kinds, Comparison.kind] using hjoined
  | and left right ihl ihr =>
    have hleft := ihl (fun k hk => hwords k (Or.inl hk))
      fun value hmem => hvalues value (by simp [values, hmem])
    have hright := ihr (fun k hk => hwords k (Or.inr hk))
      fun value hmem => hvalues value (by simp [values, hmem])
    have hgroup := (hleft.join hright .and).group
    rw [derivation, Derivation.kinds, kinds_pair]
    simpa [text, Connective.kind] using hgroup
  | or left right ihl ihr =>
    have hleft := ihl (fun k hk => hwords k (Or.inl hk))
      fun value hmem => hvalues value (by simp [values, hmem])
    have hright := ihr (fun k hk => hwords k (Or.inr hk))
      fun value hmem => hvalues value (by simp [values, hmem])
    have hgroup := (hleft.join hright .or).group
    rw [derivation, Derivation.kinds, kinds_pair]
    simpa [text, Connective.kind] using hgroup

/-! ## The keys of what has been read -/

mutual

/-- The keys of a derivation are among its words. -/
theorem Derivation.word_mem_kinds {category : Category} (d : Derivation category) {k : String}
    (h : d.expr.Mentions k) : .word k ∈ d.kinds := by
  cases d with
  | chain first links =>
    rw [Derivation.kinds, List.mem_append]
    rcases links.mentions_or h with hfirst | hlinks
    · exact Or.inl (first.word_mem_kinds hfirst)
    · exact Or.inr hlinks
  | not inner => exact List.mem_cons_of_mem _ (inner.word_mem_kinds h)
  | group inner => exact List.mem_cons_of_mem _ (List.mem_append_left _ (inner.word_mem_kinds h))
  | key key =>
    obtain rfl : k = key := h
    exact List.mem_cons_self
  | comparison key operator value =>
    obtain rfl : k = key := by cases operator <;> exact h
    exact List.mem_cons_self

/-- The keys of a chain are those of its first operand, or among the words of its links. -/
theorem Links.mentions_or {c : Connective} (links : Links c) {left : Expr} {k : String}
    (h : (links.expr left).Mentions k) : left.Mentions k ∨ .word k ∈ links.kinds := by
  match links with
  | .nil => exact Or.inl h
  | .cons operand links =>
    rw [Links.kinds, List.mem_cons, List.mem_append]
    rcases links.mentions_or h with hleft | hlinks
    · have hor : left.Mentions k ∨ operand.expr.Mentions k := by cases c <;> exact hleft
      exact hor.imp_right fun hoperand => Or.inr (Or.inl (operand.word_mem_kinds hoperand))
    · exact Or.inr (Or.inr (Or.inr hlinks))

end

/-- The keys of an expression that has been read are words. -/
theorem hasWords_of_parse {source : String} {e : Expr} (h : parse source = .ok e) :
    e.HasWords := by
  obtain ⟨d, hspells, -, rfl⟩ := exists_derivation_of_parse h
  intro k hk
  obtain ⟨lexeme, hwritten⟩ := hspells.exists_written (.word k) (d.word_mem_kinds hk)
  cases hwritten with
  | word hstart hcontinue =>
    rw [String.toList_ofList]
    exact .word hstart hcontinue

/-- The text of an expression that has been read gives the expression back, unless it takes too many
levels to read. The strings of the expression must not contain the quote that is put around them,
and its numbers must be finite. -/
theorem parse_text {source : String} {e : Expr} (h : parse source = .ok e)
    (hvalues : ∀ value ∈ e.values, value.IsPlain) :
    (e.need ≤ 128 → parse e.text = .ok e) ∧ (128 < e.need → parse e.text = .error .tooDeep) := by
  -- The text as a whole is a chain of `||` with one operand, which is a chain of `&&` with one.
  let d : Derivation (.chain .or) := .chain (.chain e.derivation .nil) .nil
  have hspells : Spells e.text.toList d.kinds := by
    have htext := e.spells_text (hasWords_of_parse h) hvalues [] [] (by simp) .nil
    rw [List.append_nil] at htext
    change Spells _ ((e.derivation.kinds ++ []) ++ [])
    rwa [List.append_nil]
  have hexpr : d.expr = e := e.expr_derivation
  have hcost : d.cost = e.need := by
    change max (max e.derivation.cost 0) 0 = _
    rw [e.cost_derivation, Nat.max_zero, Nat.max_zero]
  rw [d.parse_of_spells hspells, hexpr, hcost, depthLimit]
  exact ⟨fun hneed => if_pos hneed, fun hneed => if_neg (Nat.not_le_of_lt hneed)⟩

/-- An expression of all operators, with a string and a number. -/
theorem parse_text_of_group :
    ∃ e : Expr, parse "!(a.b == 'x y' || c != -1.50) && d" = .ok e ∧
      (∀ value ∈ e.values, value.IsPlain) ∧ e.need = 4 ∧ parse e.text = .ok e := by
  let n : Number := .finite true ⟨4609434218613702656, by decide⟩
  let e : Expr := .and (.not (.or (.equals "a.b" (.string "x y")) (.differs "c" (.number n))))
    (.key "d")
  let group := Connective.or.pair (.comparison "a.b" .equals (.string "x y"))
    (.comparison "c" .differs (.number n))
  let d := Connective.and.pair (.not (.group group)) (.key "d")
  have htokens : tokenize "!(a.b == 'x y' || c != -1.50) && d" =
      .ok [⟨.not, 0⟩, ⟨.openParen, 1⟩, ⟨.word "a.b", 2⟩, ⟨.equals, 6⟩, ⟨.string "x y", 9⟩,
        ⟨.or, 15⟩, ⟨.word "c", 18⟩, ⟨.differs, 20⟩, ⟨.number n, 23⟩, ⟨.closeParen, 28⟩,
        ⟨.and, 30⟩, ⟨.word "d", 33⟩] := by decide +kernel
  have hparse : parse "!(a.b == 'x y' || c != -1.50) && d" = .ok e := by
    rw [d.parse_of_spells (spells_iff.mpr ⟨_, htokens, rfl⟩)]
    exact if_pos (by decide)
  have hvalues : ∀ value ∈ e.values, value.IsPlain := by
    intro value hvalue
    obtain rfl | rfl : value = .string "x y" ∨ value = .number n := by
      simpa [e, Expr.values] using hvalue
    · simp [Value.IsPlain]
    · exact ⟨true, _, rfl⟩
  have hneed : e.need = 4 := by decide
  exact ⟨e, hparse, hvalues, hneed, (parse_text hparse hvalues).1 (by rw [hneed]; decide)⟩

end When

end KeyChord
