import KeyChord.Proofs.Number.RoundTrip
import KeyChord.Proofs.When.Parsing

/-!
# Where the fault is in a text that is no when-clause

An error points at a place of the text, by the number of bytes before it. The lexer gives each token
the offset of its first character, and the parser finds fault with tokens only, so that whatever is
reported stands in the text.

The module introduces:

* `token.Stands source lexeme before after`: the token is written by `lexeme` in the source, between
  the tokens before it and those after it.
* `error.Concerns tokens`: what the parser finds fault with is among the tokens.
* `error.Blames source`: the error fits what stands in the text at its offset.

The lexer stops at a character at which it can read no token (`exists_of_tokensOf_eq_error`), and
the parser at a token (`concerns_of_parse`). The main statement is `blames_of_parse`.
-/

namespace KeyChord.When

/-! ## Offsets -/

/-- What some located characters write. -/
def textOf (cs : List Located) : String :=
  String.ofList (cs.map Prod.snd)

theorem toList_textOf (cs : List Located) : (textOf cs).toList = cs.map Prod.snd :=
  String.toList_ofList

theorem utf8ByteSize_textOf_cons (d : Located) (cs : List Located) :
    (textOf (d :: cs)).utf8ByteSize = d.2.utf8Size + (textOf cs).utf8ByteSize := by
  rw [textOf, List.map_cons, ← List.singleton_append, String.ofList_append,
    String.utf8ByteSize_append, ← String.singleton_eq_ofList, String.utf8ByteSize_singleton, textOf]

/-- The offset of a character is that of the first one and the number of bytes between them. -/
theorem fst_eq_of_locate_eq {offset : Nat} {cs : List Char} {front back : List Located}
    {d : Located} (h : locate offset cs = front ++ d :: back) :
    d.1 = offset + (textOf front).utf8ByteSize := by
  induction cs generalizing offset front with
  | nil => simp [locate] at h
  | cons c cs ih =>
    rw [locate] at h
    cases front with
    | nil =>
      obtain ⟨rfl, -⟩ := List.cons.inj h
      simp [textOf]
    | cons a front =>
      obtain ⟨rfl, hrest⟩ := List.cons.inj h
      rw [ih hrest, utf8ByteSize_textOf_cons, Nat.add_assoc]

/-- A text is cut where its characters are. -/
theorem eq_append_of_locate_eq {source : String} {front middle back : List Located}
    (h : locate 0 source.toList = front ++ (middle ++ back)) :
    source = textOf front ++ textOf middle ++ textOf back := by
  have hchars := congrArg (List.map Prod.snd) h
  rw [map_snd_locate] at hchars
  rw [← String.toList_inj, hchars]
  simp [toList_textOf]

/-- A character of a text stands where its offset says. -/
theorem utf8ByteSize_textOf {source : String} {front back : List Located} {d : Located}
    (h : locate 0 source.toList = front ++ d :: back) : (textOf front).utf8ByteSize = d.1 := by
  rw [fst_eq_of_locate_eq h, Nat.zero_add]

/-! ## Where the lexer stops -/

/-- The lexer stops behind some tokens, at a character at which it can read none. -/
theorem exists_of_tokensOf_eq_error {cs : List Located} {error : ParseError}
    (h : tokensOf cs = .error error) :
    ∃ tokens d rest, SpellsBefore cs tokens (d :: rest) ∧
      readToken d.1 d.2 rest = .error error := by
  fun_induction tokensOf cs with
  | case1 => cases h
  | case2 offset c cs hblank ih =>
    obtain ⟨tokens, d, rest, hspells, hread⟩ := ih h
    exact ⟨tokens, d, rest, .blank hblank hspells, hread⟩
  | case3 offset c cs hblank e hread =>
    cases h
    exact ⟨[], (offset, c), cs, .nil, hread⟩
  | case4 offset c cs hblank kind rest hlength hread ih =>
    obtain ⟨lexeme, hcs, hwritten, hends⟩ := exists_written_of_readToken hread
    rw [hcs]
    cases hrest : tokensOf rest with
    | error e =>
      rw [hrest] at h
      cases h
      obtain ⟨tokens, d, rest, hspells, hstop⟩ := ih hrest
      exact ⟨⟨kind, offset⟩ :: tokens, d, rest, .token hwritten hends hspells, hstop⟩
    | ok tokens =>
      rw [hrest] at h
      cases h

/-- Where no token can be read, the character is to blame, unless it is a quote that is the last of
its kind. -/
theorem readToken_eq_error {offset : Nat} {c : Char} {cs : List Located} {error : ParseError}
    (h : readToken offset c cs = .error error) :
    error = .unexpectedChar c offset ∨
      error = .unterminatedString offset ∧ (c = '\'' ∨ c = '"') ∧ c ∉ cs.map Prod.snd := by
  rw [readToken] at h
  split_ifs at h with hopen hclose hbang hand hor hequals hquote hnumber hword
  · split at h <;> cases h
  · split at h <;> cases h
    exact Or.inl rfl
  · split at h <;> cases h
    exact Or.inl rfl
  · split at h <;> cases h
    exact Or.inl rfl
  · -- The string takes in all the characters, so that none of them is the quote.
    obtain ⟨front, ⟨rest, _⟩, hspan, hcs, hfree, -⟩ := exists_of_spanWhile (· != c) cs
    rw [hspan] at h
    cases rest with
    | cons d rest => cases h
    | nil =>
      cases h
      refine Or.inr ⟨rfl, hquote, fun hmem => ?_⟩
      rw [hcs, List.append_nil] at hmem
      simpa using hfree c hmem
  · simp only at h
    split at h <;> cases h
    exact Or.inl rfl
  · cases h
    exact Or.inl rfl

/-! ## What the parser finds fault with -/

/-- What the parser finds fault with is one of the tokens, or a key of which the operator comes
last, or nothing in particular. -/
inductive ParseError.Concerns : List Token → ParseError → Prop where
  | unexpectedToken {before after : List Token} {token : Token} :
    Concerns (before ++ token :: after) (.unexpectedToken token)
  | unexpectedEnd {tokens : List Token} : Concerns tokens .unexpectedEnd
  | missingValue {before : List Token} {key : String} {operator : Comparison}
      {offset offset' : Nat} :
      Concerns (before ++ [⟨.word key, offset⟩, ⟨operator.kind, offset'⟩]) (.missingValue offset)
  | tooDeep {tokens : List Token} : Concerns tokens .tooDeep

variable {tokens rest : List Token} {error : ParseError}

/-- What is wrong with the last tokens is wrong with all of them. -/
theorem ParseError.Concerns.append (h : Concerns tokens error) (front : List Token) :
    Concerns (front ++ tokens) error := by
  cases h with
  | unexpectedToken =>
    rw [← List.append_assoc]
    exact .unexpectedToken
  | unexpectedEnd => exact .unexpectedEnd
  | missingValue =>
    rw [← List.append_assoc]
    exact .missingValue
  | tooDeep => exact .tooDeep

/-- The first token is one of the tokens. -/
theorem concerns_head (token : Token) (rest : List Token) :
    (ParseError.unexpectedToken token).Concerns (token :: rest) := by
  rw [← List.nil_append (token :: rest)]
  exact .unexpectedToken

theorem concerns_of_parseComparison {key : String} {offset : Nat}
    (h : parseComparison key offset tokens = .error error) :
    error.Concerns (⟨.word key, offset⟩ :: tokens) := by
  -- Both operators want a value in the same way.
  have hvalue : ∀ (operator : Comparison) (token : Token) (rest : List Token),
      token.kind = operator.kind →
      (parseValue offset rest).map (fun p => (operator.expr key p.1, p.2)) = .error error →
      error.Concerns (⟨.word key, offset⟩ :: token :: rest) := by
    rintro operator ⟨_, offset'⟩ rest rfl h
    cases hread : parseValue offset rest with
    | ok p =>
      rw [hread] at h
      cases h
    | error e =>
      rw [hread] at h
      cases h
      cases rest with
      | nil =>
        cases hread
        rw [← List.nil_append (_ :: [_])]
        exact .missingValue
      | cons value rest =>
        rw [parseValue] at hread
        refine ParseError.Concerns.append ?_ [⟨.word key, offset⟩, ⟨operator.kind, offset'⟩]
        split at hread
        · cases hread
        · cases hread
        · split_ifs at hread
        · cases hread
          exact concerns_head value rest
  cases tokens with
  | nil => cases h
  | cons token rest =>
    rw [parseComparison] at h
    split at h
    · next hkind => exact hvalue .equals token rest hkind h
    · next hkind => exact hvalue .differs token rest hkind h
    · cases h

theorem concerns_of_parseClose {inner : Expr} (h : parseClose inner tokens = .error error) :
    error.Concerns tokens := by
  cases tokens with
  | nil =>
    cases h
    exact .unexpectedEnd
  | cons token rest =>
    rw [parseClose] at h
    split_ifs at h
    cases h
    exact concerns_head token rest

mutual

/-- What the parser finds fault with is among its tokens. -/
theorem concerns_of_parse {category : Category} {levels : Nat} {tokens : List Token}
    {error : ParseError} (h : category.parse levels tokens = .error error) :
    error.Concerns tokens := by
  -- What has been read is in front of what has not, so that a fault is carried back over it.
  match category with
  | .chain c =>
    have := rank_operand_lt c
    rw [parse_chain] at h
    split at h
    · next e hfirst =>
      cases h
      exact concerns_of_parse hfirst
    · next left middle hfirst =>
      obtain ⟨-, front, rfl, -, -⟩ := derives_of_parse hfirst
      exact (concerns_of_parseLinks h).append front
  | .unary =>
    rw [Category.parse, parseUnary.eq_def] at h
    split at h
    · cases h
      exact .unexpectedEnd
    · next offset tokens =>
      split at h
      · cases h
        exact .tooDeep
      · next levels =>
        cases hinner : parseUnary levels tokens with
        | ok p =>
          rw [hinner] at h
          cases h
        | error e =>
          rw [hinner] at h
          cases h
          exact (@concerns_of_parse .unary _ _ _ hinner).append [⟨.not, offset⟩]
    · next offset tokens =>
      split at h
      · cases h
        exact .tooDeep
      · next levels =>
        split at h
        · next e hinner =>
          cases h
          exact (@concerns_of_parse (.chain .or) _ _ _ hinner).append [⟨.openParen, offset⟩]
        · next inner middle hinner =>
          obtain ⟨-, front, rfl, -, -⟩ := @derives_of_parse (.chain .or) _ _ _ _ hinner
          exact (concerns_of_parseClose h).append (⟨.openParen, offset⟩ :: front)
    · exact concerns_of_parseComparison h
    · cases h
      exact concerns_head _ _
termination_by (levels, category.rank)

/-- What the parser finds fault with in the links of a chain is among its tokens. -/
theorem concerns_of_parseLinks {c : Connective} {levels : Nat} {left : Expr} {tokens : List Token}
    {error : ParseError} (h : c.parseLinks levels left tokens = .error error) :
    error.Concerns tokens := by
  by_cases hhead : ∃ token ∈ tokens.head?, token.kind = c.kind
  · obtain ⟨token, htoken, hkind⟩ := hhead
    obtain ⟨tokens, rfl⟩ := List.head?_eq_some_iff.mp htoken
    cases levels with
    | zero =>
      rw [parseLinks_zero hkind] at h
      cases h
      exact .tooDeep
    | succ levels =>
      rw [parseLinks_succ hkind] at h
      split at h
      · next e hoperand =>
        cases h
        exact (concerns_of_parse hoperand).append [token]
      · next right middle hoperand =>
        obtain ⟨-, front, rfl, -, -⟩ := derives_of_parse hoperand
        exact (concerns_of_parseLinks h).append (token :: front)
  · rw [parseLinks_of_ne fun token htoken hkind => hhead ⟨token, htoken, hkind⟩] at h
    cases h
termination_by (levels, 0)

end

/-- The parser finds fault with one of the tokens, if there are any. -/
theorem concerns_of_parseTokens (h : parseTokens tokens = .error error) :
    tokens = [] ∧ error = .empty ∨ error.Concerns tokens := by
  rw [parseTokens] at h
  split_ifs at h with hempty
  · cases h
    exact Or.inl ⟨List.isEmpty_iff.mp hempty, rfl⟩
  · refine Or.inr ?_
    split at h
    · next e hparse =>
      cases h
      exact @concerns_of_parse (.chain .or) _ _ _ hparse
    · cases h
    · next token rest hparse =>
      cases h
      obtain ⟨-, front, rfl, -, -⟩ := @derives_of_parse (.chain .or) _ _ _ _ hparse
      exact (concerns_head token rest).append front

/-! ## The culprit -/

/-- The token is written by the lexeme in the source, between the tokens before it and those after
it, and its offset is the number of bytes before the lexeme. -/
structure Token.Stands (token : Token) (source lexeme : String) (before after : List Token) :
    Prop where
  /-- It is a token of the source. -/
  tokenize_eq : tokenize source = .ok (before ++ token :: after)
  /-- The lexeme is a way to write it. -/
  written : token.kind.Written lexeme.toList
  /-- The lexeme is in its place. -/
  place : ∃ front back, source = front ++ lexeme ++ back ∧ front.utf8ByteSize = token.offset ∧
    Spells front.toList (before.map Token.kind) ∧ Spells back.toList (after.map Token.kind)

/-- The offset that an error gives, if it gives any. -/
def ParseError.offset? : ParseError → Option Nat
  | empty | unexpectedEnd | tooDeep => none
  | unexpectedChar _ offset | unterminatedString offset | missingValue offset => some offset
  | unexpectedToken token => some token.offset

/-- The error fits what stands in the source at its offset. -/
inductive ParseError.Blames (source : String) : ParseError → Prop where
  /-- There are only blanks. -/
  | empty (hblank : Text.isBlankText source = true) : Blames source .empty
  /-- The character stands there, behind whole tokens. -/
  | unexpectedChar {front back : String} {c : Char} {kinds : List TokenKind}
      (hsource : source = front ++ String.singleton c ++ back)
      (hfront : Spells front.toList kinds) :
      Blames source (.unexpectedChar c front.utf8ByteSize)
  /-- A quote stands there, behind whole tokens, and does not occur again. -/
  | unterminatedString {front back : String} {quote : Char} {kinds : List TokenKind}
      (hquote : quote = '\'' ∨ quote = '"')
      (hsource : source = front ++ String.singleton quote ++ back)
      (hfront : Spells front.toList kinds) (hlast : quote ∉ back.toList) :
      Blames source (.unterminatedString front.utf8ByteSize)
  /-- The token that the message describes stands there. -/
  | unexpectedToken {token : Token} {lexeme : String} {before after : List Token}
      (hstands : token.Stands source lexeme before after) : Blames source (.unexpectedToken token)
  /-- No place is given. -/
  | unexpectedEnd : Blames source .unexpectedEnd
  /-- The key of a comparison stands there, of which the operator is the last token. -/
  | missingValue {key lexeme : String} {operator : Comparison} {offset offset' : Nat}
      {before : List Token}
      (hstands : Token.Stands ⟨.word key, offset⟩ source lexeme before
        [⟨operator.kind, offset'⟩]) :
      Blames source (.missingValue offset)
  /-- No place is given. -/
  | tooDeep : Blames source .tooDeep

section Culprit

variable {source : String}

/-- Every token of a text stands in it. -/
theorem exists_stands {before after : List Token} {token : Token}
    (h : tokenize source = .ok (before ++ token :: after)) :
    ∃ lexeme, token.Stands source lexeme before after := by
  obtain ⟨d, lexeme, back, hbefore, hoffset, hwritten, hafter⟩ :=
    (spellsBefore_of_tokensOf h).exists_of_append_cons
  obtain ⟨front, hsource, hfront⟩ := hbefore.exists_front
  obtain ⟨back', hnil, hback⟩ := hafter.exists_front
  obtain rfl : back = back' := by rw [hnil, List.append_nil]
  refine ⟨textOf (d :: lexeme), h, ?_, textOf front, textOf back,
    eq_append_of_locate_eq hsource, ?_, ?_, ?_⟩
  · rwa [toList_textOf]
  · rw [utf8ByteSize_textOf hsource, hoffset]
  · rwa [toList_textOf]
  · rwa [toList_textOf]

/-- Only blanks spell no tokens. -/
theorem spells_nil_iff {cs : List Char} : Spells cs [] ↔ ∀ c ∈ cs, Text.isBlank c = true := by
  constructor
  · intro h
    generalize hkinds : ([] : List TokenKind) = kinds at h
    induction h with
    | nil => simp
    | blank hblank _ ih => exact List.forall_mem_cons.mpr ⟨hblank, ih hkinds⟩
    | token => cases hkinds
  · intro h
    induction cs with
    | nil => exact .nil
    | cons c cs ih =>
      obtain ⟨hc, hcs⟩ := List.forall_mem_cons.mp h
      exact .blank hc (ih hcs)

/-- A token that stands in a text has a first character. -/
theorem Token.Stands.exists_char {token : Token} {lexeme : String} {before after : List Token}
    (h : token.Stands source lexeme before after) :
    ∃ front c back, source = front ++ String.singleton c ++ back ∧
      front.utf8ByteSize = token.offset := by
  obtain ⟨front, back, rfl, hoffset, -, -⟩ := h.place
  obtain ⟨c, cs, hlexeme, -⟩ := h.written.exists_eq_cons
  refine ⟨front, c, String.ofList cs ++ back, ?_, hoffset⟩
  rw [← String.toList_inj]
  simp [hlexeme]

/-- A text without tokens is blank. -/
theorem tokenize_eq_nil_iff : tokenize source = .ok [] ↔ Text.isBlankText source = true := by
  rw [Text.isBlankText, List.all_eq_true, ← spells_nil_iff, spells_iff]
  simp

/-- What the lexer finds fault with stands in the text. -/
theorem blames_of_tokenize {error : ParseError} (h : tokenize source = .error error) :
    error.Blames source := by
  obtain ⟨tokens, d, rest, hspells, hread⟩ := exists_of_tokensOf_eq_error h
  obtain ⟨front, hsource, hfront⟩ := hspells.exists_front
  have hoffset := utf8ByteSize_textOf hsource
  have hparts : locate 0 source.toList = front ++ ([d] ++ rest) := hsource
  have htext : source = textOf front ++ String.singleton d.2 ++ textOf rest := by
    have hone : textOf [d] = String.singleton d.2 := String.singleton_eq_ofList.symm
    rw [← hone]
    exact eq_append_of_locate_eq hparts
  rw [← toList_textOf] at hfront
  rw [← hoffset] at hread
  rcases readToken_eq_error hread with rfl | ⟨rfl, hquote, hlast⟩
  · exact .unexpectedChar htext hfront
  · exact .unterminatedString hquote htext hfront (by rwa [toList_textOf])

/-- What the parser finds fault with stands in the text. -/
theorem blames_of_concerns {tokens : List Token} {error : ParseError}
    (htokens : tokenize source = .ok tokens) (h : error.Concerns tokens) :
    error.Blames source := by
  cases h with
  | unexpectedToken =>
    obtain ⟨lexeme, hstands⟩ := exists_stands htokens
    exact .unexpectedToken hstands
  | unexpectedEnd => exact .unexpectedEnd
  | missingValue =>
    obtain ⟨lexeme, hstands⟩ := exists_stands htokens
    exact .missingValue hstands
  | tooDeep => exact .tooDeep

/-- A character stands where an error points. -/
theorem ParseError.Blames.exists_char {error : ParseError} (h : error.Blames source) {offset : Nat}
    (hoffset : error.offset? = some offset) :
    ∃ front c back, source = front ++ String.singleton c ++ back ∧
      front.utf8ByteSize = offset := by
  cases h with
  | empty | unexpectedEnd | tooDeep => cases hoffset
  | unexpectedChar hsource | unterminatedString _ hsource =>
    cases hoffset
    exact ⟨_, _, _, hsource, rfl⟩
  | unexpectedToken hstands | missingValue hstands =>
    cases hoffset
    exact hstands.exists_char

end Culprit

/-- The description of a token tells what it is and what is in it. -/
theorem description_injective : Function.Injective TokenKind.description := by
  intro kind kind' h
  -- The first words of the descriptions differ, or the texts in them are the same.
  have hchars := congrArg String.toList h
  cases kind <;> cases kind' <;>
    simp [TokenKind.description, String.toList_inj, Number.text_injective.eq_iff] at hchars ⊢ <;>
    exact hchars

/-- An error of a text that is no when-clause points at a character of the text. An unexpected
character stands there; or the quote does, behind which no other one ends the string; or the
unexpected token does, which the message describes; or the key of a comparison whose operator is the
last token. A text is empty exactly if it is blank. -/
theorem blames_of_parse (source : String) :
    (∀ error, parse source = .error error → error.Blames source ∧
      ∀ offset, error.offset? = some offset → ∃ front c back,
        source = front ++ String.singleton c ++ back ∧ front.utf8ByteSize = offset) ∧
      (parse source = .error .empty ↔ Text.isBlankText source = true) ∧
      Function.Injective TokenKind.description := by
  have hblames : ∀ error, parse source = .error error → error.Blames source := by
    intro error h
    rw [parse] at h
    cases htokens : tokenize source with
    | error e =>
      rw [htokens] at h
      cases h
      exact blames_of_tokenize htokens
    | ok tokens =>
      rw [htokens] at h
      rcases concerns_of_parseTokens h with ⟨rfl, rfl⟩ | hconcerns
      · exact .empty (tokenize_eq_nil_iff.mp htokens)
      · exact blames_of_concerns htokens hconcerns
  refine ⟨fun error h => ⟨hblames error h, fun offset hoffset => ?_⟩, ⟨fun h => ?_, fun h => ?_⟩,
    description_injective⟩
  · exact (hblames error h).exists_char hoffset
  · cases hblames .empty h with
    | empty hblank => exact hblank
  · rw [parse, tokenize_eq_nil_iff.mpr h]
    rfl

/-- The string in `ä && 'ö'` is where a key has to be, and stands six bytes from the start. -/
theorem blames_of_parse_string :
    parse "ä && 'ö'" = .error (.unexpectedToken ⟨.string "ö", 6⟩) ∧
      (ParseError.unexpectedToken ⟨.string "ö", 6⟩).Blames "ä && 'ö'" ∧
      ∃ front c back, "ä && 'ö'" = front ++ String.singleton c ++ back ∧
        front.utf8ByteSize = 6 := by
  have htokens : tokenize "ä && 'ö'" = .ok [⟨.word "ä", 0⟩, ⟨.and, 3⟩, ⟨.string "ö", 6⟩] := by
    decide +kernel
  have h : parse "ä && 'ö'" = .error (.unexpectedToken ⟨.string "ö", 6⟩) := by
    rw [parse, htokens]
    cbv
  obtain ⟨hblames, hplace⟩ := (blames_of_parse "ä && 'ö'").1 _ h
  exact ⟨h, hblames, hplace 6 rfl⟩

end KeyChord.When
