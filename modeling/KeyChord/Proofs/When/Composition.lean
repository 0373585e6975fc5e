import KeyChord.Proofs.When.Frames
import KeyChord.Proofs.When.RoundTrip
import KeyChord.When.Clause

/-!
# When-clauses are put together as texts

A text that is read on its own can be put between parentheses anywhere among whole tokens, and then
it is read there as it is on its own: no quote, no sign and no number in it joins with what stands
around the parentheses. Only the levels that reading takes add up.

The module introduces:

* `conjoined`, `disjoined`, `negated`: texts in parentheses with an operator between or before them.
* `surrounded front source back`: a text in parentheses between two others.
* `e.within levels`: the expression, or an error if it takes too many levels.
* `Writes source e levels`: the text is a way to write the expression, and takes these levels.

A text that is composed of others writes the composed expression (`writes_pair`, `Writes.negated`).
What stands around a text is a `Frame` (`exists_frame_of_parse`). The main statement is
`parse_composed`.
-/

namespace KeyChord.When

/-! ## Texts put together -/

/-- Both texts in parentheses, with `&&` between them. -/
def conjoined (first second : String) : String :=
  "(" ++ first ++ ") && (" ++ second ++ ")"

/-- Both texts in parentheses, with `||` between them. -/
def disjoined (first second : String) : String :=
  "(" ++ first ++ ") || (" ++ second ++ ")"

/-- The text in parentheses, with `!` before it. -/
def negated (source : String) : String :=
  "!(" ++ source ++ ")"

/-- The text in parentheses, between two others. -/
def surrounded (front source back : String) : String :=
  front ++ "(" ++ source ++ ")" ++ back

/-- What reading gives that takes some levels: the expression, or an error if they are too many. -/
def Expr.within (e : Expr) (levels : Nat) : Except ParseError Expr :=
  if levels ≤ depthLimit then .ok e else .error .tooDeep

/-- The text is a way to write the expression, and reading it takes some levels. -/
def Writes (source : String) (e : Expr) (levels : Nat) : Prop :=
  ∃ d : Derivation (.chain .or), Spells source.toList d.kinds ∧ d.expr = e ∧ d.cost = levels

section Reading

variable {source : String} {e : Expr} {levels : Nat}

/-- A text that writes an expression is read as it. -/
theorem Writes.parse_eq (h : Writes source e levels) : parse source = e.within levels := by
  obtain ⟨d, hspells, rfl, rfl⟩ := h
  exact d.parse_of_spells hspells

/-- Whatever is read is written. -/
theorem exists_writes_of_parse (h : parse source = .ok e) :
    ∃ levels, Writes source e levels := by
  obtain ⟨d, hspells, -, hexpr⟩ := exists_derivation_of_parse h
  exact ⟨d.cost, d, hspells, hexpr, rfl⟩

/-- A clause that is valid holds where its expression does. -/
theorem holds_of_parse_eq (h : parse source = e.within levels)
    (hvalid : (Clause.ofSource source).isValid = true) (c : Context) :
    (Clause.ofSource source).holds c = e.eval c := by
  obtain ⟨e', he'⟩ := (Clause.isValid_ofSource source).mp hvalid
  have hwithin := h.symm.trans he'
  rw [Expr.within] at hwithin
  split_ifs at hwithin
  cases hwithin
  simp [Clause.ofSource, Clause.holds, he', Except.toOption]

end Reading

/-! ## What composed texts write -/

theorem Spells.inside {cs : List Char} {kinds : List TokenKind} (h : Spells cs kinds) :
    SpellsInside cs kinds :=
  fun _ _ hrest hspells => h.append hspells fun kind c hc => takes_eq_false kind (hrest c hc)

section Composed

variable {first second source : String} {e e₁ e₂ : Expr} {n n₁ n₂ : Nat}

/-- Two texts in parentheses with an operator between them write the composed expression. The first
takes one level more than it does on its own, and the second takes two. -/
theorem writes_pair (c : Connective) {mark : Char} (h₁ : Writes first e₁ n₁)
    (h₂ : Writes second e₂ n₂) (hoperator : c.kind.Written [mark, mark])
    (hsource : source.toList = '(' :: (first.toList ++ [')']) ++
      ' ' :: mark :: mark :: ' ' :: '(' :: (second.toList ++ [')'])) :
    Writes source (c.expr e₁ e₂) (max (n₁ + 1) (n₂ + 2)) := by
  obtain ⟨d₁, hd₁, rfl, rfl⟩ := h₁
  obtain ⟨d₂, hd₂, rfl, rfl⟩ := h₂
  have hpair := hd₁.inside.group.join hd₂.inside.group hoperator
  refine ⟨c.pair (.group d₁) (.group d₂), ?_, expr_pair c _ _, cost_pair c _ _⟩
  rw [kinds_pair, hsource]
  simpa [Derivation.kinds] using hpair [] [] (by simp) .nil

theorem Writes.conjoined (h₁ : Writes first e₁ n₁) (h₂ : Writes second e₂ n₂) :
    Writes (conjoined first second) (.and e₁ e₂) (max (n₁ + 1) (n₂ + 2)) :=
  writes_pair .and h₁ h₂ .and (by simp [When.conjoined])

theorem Writes.disjoined (h₁ : Writes first e₁ n₁) (h₂ : Writes second e₂ n₂) :
    Writes (disjoined first second) (.or e₁ e₂) (max (n₁ + 1) (n₂ + 2)) :=
  writes_pair .or h₁ h₂ .or (by simp [When.disjoined])

/-- A text in parentheses with `!` before it writes the negation, and takes two levels more than it
does on its own. -/
theorem Writes.negated (h : Writes source e n) : Writes (negated source) (.not e) (n + 2) := by
  obtain ⟨d, hd, rfl, rfl⟩ := h
  have hnot := hd.inside.group.not (by simp)
  refine ⟨(Derivation.not (.group d)).alone, ?_, rfl, Derivation.cost_alone _⟩
  rw [Derivation.kinds_alone]
  simpa [When.negated, Derivation.kinds] using hnot [] [] (by simp) .nil

/-- A text in parentheses spells its group between texts that spell tokens. -/
theorem spells_surrounded {front back : String} {frontKinds backKinds : List TokenKind}
    {d : Derivation (.chain .or)} (hfront : Spells front.toList frontKinds)
    (h : Spells source.toList d.kinds) (hback : Spells back.toList backKinds) :
    Spells (surrounded front source back).toList (frontKinds ++ (d.group.kinds ++ backKinds)) := by
  have hgroup := h.inside.spells_group hback
  have hall := hfront.append hgroup (by rintro kind c ⟨⟩; cases kind <;> rfl)
  simpa [surrounded, Derivation.kinds] using hall

end Composed

/-! ## What composed texts are read as -/

/-- What is around a text in parentheses, among whole tokens, is a frame: filled with what the text
is read as on its own, it is what all of it is read as, and so for any other text. Where the texts
hold alike, so does all of it. -/
theorem exists_frame_of_parse {front source back : String} {e whole : Expr}
    (hsource : parse source = .ok e) (hfront : ∃ tokens, tokenize front = .ok tokens)
    (hback : ∃ tokens, tokenize back = .ok tokens)
    (h : parse (surrounded front source back) = .ok whole) :
    ∃ (frame : Frame) (above : Nat), whole = frame.fill e ∧ ∀ other e', parse other = .ok e' →
      (∃ n, Writes other e' n ∧
        parse (surrounded front other back) = (frame.fill e').within (above + n)) ∧
      ∀ c, e'.eval c = e.eval c → (frame.fill e').eval c = whole.eval c := by
  obtain ⟨frontTokens, hfront⟩ := hfront
  obtain ⟨backTokens, hback⟩ := hback
  have hfront := spells_iff.mpr ⟨frontTokens, hfront, rfl⟩
  have hback := spells_iff.mpr ⟨backTokens, hback, rfl⟩
  obtain ⟨d, hd, -, rfl⟩ := exists_derivation_of_parse hsource
  obtain ⟨whole, hwhole, hlimit, rfl⟩ := exists_derivation_of_parse h
  -- The tokens of the whole are those of the texts around the group, and of the group.
  have hkinds := hwhole.unique (spells_surrounded hfront hd hback)
  obtain ⟨frame, own, above, hframe, hexpr, hown⟩ := whole.exists_frame d hkinds
  refine ⟨frame, above, hexpr, fun other e' hother => ⟨?_, fun c heval => ?_⟩⟩
  · obtain ⟨d', hd', -, rfl⟩ := exists_derivation_of_parse hother
    obtain ⟨whole', hkinds', hexpr', hcost'⟩ := hframe d'
    have hspells := spells_surrounded hfront hd' hback
    rw [← hkinds'] at hspells
    refine ⟨d'.cost, ⟨d', hd', rfl, rfl⟩, ?_⟩
    rw [whole'.parse_of_spells hspells, hexpr', hcost', Expr.within]
    -- What the frame takes by itself is not too much, as has been seen with the first text.
    have hfits : max own (above + d'.cost) ≤ depthLimit ↔ above + d'.cost ≤ depthLimit := by
      omega
    simp only [hfits]
  · rw [hexpr]
    exact frame.eval_fill_congr heval

/-- Two texts that are read on their own are read in parentheses with an operator between them, and
one with `!` before it, unless this takes too many levels. So a clause that is composed of them, if
it is valid, holds where both do, or where one of them does, or where it does not. Whatever else
stands around such a text, as long as it consists of whole tokens, is a frame that is filled with
what the text is read as. The frame is the same for every other text, and holds alike for texts that
do. -/
theorem parse_composed {first second : String} {e₁ e₂ : Expr} (h₁ : parse first = .ok e₁)
    (h₂ : parse second = .ok e₂) :
    (∃ n₁ n₂, Writes first e₁ n₁ ∧ Writes second e₂ n₂ ∧
      parse (conjoined first second) = (Expr.and e₁ e₂).within (max (n₁ + 1) (n₂ + 2)) ∧
      parse (disjoined first second) = (Expr.or e₁ e₂).within (max (n₁ + 1) (n₂ + 2)) ∧
      parse (negated first) = (Expr.not e₁).within (n₁ + 2)) ∧
    (∀ c : Context,
      ((Clause.ofSource (conjoined first second)).isValid = true →
        (Clause.ofSource (conjoined first second)).holds c =
          ((Clause.ofSource first).holds c && (Clause.ofSource second).holds c)) ∧
      ((Clause.ofSource (disjoined first second)).isValid = true →
        (Clause.ofSource (disjoined first second)).holds c =
          ((Clause.ofSource first).holds c || (Clause.ofSource second).holds c)) ∧
      ((Clause.ofSource (negated first)).isValid = true →
        (Clause.ofSource (negated first)).holds c = !(Clause.ofSource first).holds c)) ∧
    ∀ front back whole, (∃ tokens, tokenize front = .ok tokens) →
      (∃ tokens, tokenize back = .ok tokens) →
      parse (surrounded front first back) = .ok whole →
        ∃ (frame : Frame) (above : Nat), whole = frame.fill e₁ ∧ ∀ other e', parse other = .ok e' →
          (∃ n, Writes other e' n ∧
            parse (surrounded front other back) = (frame.fill e').within (above + n)) ∧
          ∀ c, e'.eval c = e₁.eval c → (frame.fill e').eval c = whole.eval c := by
  obtain ⟨n₁, hwrites₁⟩ := exists_writes_of_parse h₁
  obtain ⟨n₂, hwrites₂⟩ := exists_writes_of_parse h₂
  have hand := (hwrites₁.conjoined hwrites₂).parse_eq
  have hor := (hwrites₁.disjoined hwrites₂).parse_eq
  have hnot := hwrites₁.negated.parse_eq
  -- The parts are valid clauses, since they are read on their own.
  have hfirst := holds_of_parse_eq hwrites₁.parse_eq ((Clause.isValid_ofSource _).mpr ⟨_, h₁⟩)
  have hsecond := holds_of_parse_eq hwrites₂.parse_eq ((Clause.isValid_ofSource _).mpr ⟨_, h₂⟩)
  refine ⟨⟨n₁, n₂, hwrites₁, hwrites₂, hand, hor, hnot⟩,
    fun c => ⟨fun hvalid => ?_, fun hvalid => ?_, fun hvalid => ?_⟩, ?_⟩
  · rw [holds_of_parse_eq hand hvalid, hfirst, hsecond]
    rfl
  · rw [holds_of_parse_eq hor hvalid, hfirst, hsecond]
    rfl
  · rw [holds_of_parse_eq hnot hvalid, hfirst, Expr.eval]
  · exact fun front back whole hfront hback hwhole =>
      exists_frame_of_parse h₁ hfront hback hwhole

/-- What looks like the end of a text in a string of it stays in the string. -/
theorem parse_composed_of_quotes :
    ∃ e₁ e₂, parse "a || b" = .ok e₁ ∧ parse "k == ') && ('" = .ok e₂ ∧
      (∃ n, parse (conjoined "a || b" "k == ') && ('") = (Expr.and e₁ e₂).within n) ∧
      ∃ frame : Frame, parse (surrounded "x && " "a || b" " || y") = .ok (frame.fill e₁) ∧
        ∃ n, parse (surrounded "x && " "k == ') && ('" " || y") = (frame.fill e₂).within n := by
  let d₁ := Connective.or.pair (.key "a") (.key "b")
  let d₂ := (Derivation.comparison "k" .equals (.string ") && (")).alone
  have htokens₁ : tokenize "a || b" = .ok [⟨.word "a", 0⟩, ⟨.or, 2⟩, ⟨.word "b", 5⟩] := by
    decide +kernel
  have htokens₂ : tokenize "k == ') && ('" =
      .ok [⟨.word "k", 0⟩, ⟨.equals, 2⟩, ⟨.string ") && (", 5⟩] := by
    decide +kernel
  have h₁ : parse "a || b" = .ok d₁.expr := by
    rw [d₁.parse_of_spells (spells_iff.mpr ⟨_, htokens₁, rfl⟩)]
    exact if_pos (by decide)
  have h₂ : parse "k == ') && ('" = .ok d₂.expr := by
    rw [d₂.parse_of_spells (spells_iff.mpr ⟨_, htokens₂, rfl⟩)]
    exact if_pos (by decide)
  obtain ⟨⟨n₁, n₂, -, -, hand, -, -⟩, -, hframe⟩ := parse_composed h₁ h₂
  -- The group is the right operand of `&&`, which is the left one of `||`.
  let d : Derivation (.chain .or) :=
    .chain (.chain (.key "x") (.cons d₁.group .nil)) (.cons (.chain (.key "y") .nil) .nil)
  have hfront : tokenize "x && " = .ok [⟨.word "x", 0⟩, ⟨.and, 2⟩] := by decide +kernel
  have hback : tokenize " || y" = .ok [⟨.or, 1⟩, ⟨.word "y", 4⟩] := by decide +kernel
  have htokens : tokenize (surrounded "x && " "a || b" " || y") =
      .ok [⟨.word "x", 0⟩, ⟨.and, 2⟩, ⟨.openParen, 5⟩, ⟨.word "a", 6⟩, ⟨.or, 8⟩, ⟨.word "b", 11⟩,
        ⟨.closeParen, 12⟩, ⟨.or, 14⟩, ⟨.word "y", 17⟩] := by
    decide +kernel
  have hwhole : parse (surrounded "x && " "a || b" " || y") = .ok d.expr := by
    rw [d.parse_of_spells (spells_iff.mpr ⟨_, htokens, rfl⟩)]
    exact if_pos (by decide)
  obtain ⟨frame, above, hfill, hother⟩ := hframe _ _ _ ⟨_, hfront⟩ ⟨_, hback⟩ hwhole
  rw [hfill] at hwhole
  obtain ⟨n, -, hsecond⟩ := (hother _ _ h₂).1
  exact ⟨_, _, h₁, h₂, ⟨_, hand⟩, frame, hwhole, _, hsecond⟩

end KeyChord.When
