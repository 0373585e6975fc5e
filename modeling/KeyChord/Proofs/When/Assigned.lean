import KeyChord.Proofs.Context.Assignments
import KeyChord.Proofs.When.Parsing

/-!
# Values in assignments and in when-clauses

A value is read in two places. Behind the operator of a comparison it is a token, which the lexer
has cut out; behind the equals sign of an assignment it is whatever is left when the blanks around
it have been trimmed away. Both take `true` and `false` for truth values, and agree on numbers and
on strings between quotes. Any other word is a string in a when-clause, but an assignment takes
three of them for numbers, in any letter case.

The module introduces:

* `Number.words`: these words.
* `kind.IsNumberWord`: the token is one of them.

The main statement is `eval_of_same_text`.
-/

namespace KeyChord

/-- The words that are read as numbers, in small letters. -/
def Number.words : List (List Char) :=
  [['n', 'a', 'n'], ['i', 'n', 'f'], ['i', 'n', 'f', 'i', 'n', 'i', 't', 'y']]

/-- The token is a word that is read as a number where it stands by itself. -/
def When.TokenKind.IsNumberWord : When.TokenKind → Prop
  | word text => text.toList.map Char.toLower ∈ Number.words
  | _ => False

/-! ## Numbers -/

namespace Number

variable {negative : Bool} {c : Char} {cs : List Char} {n : Number}

theorem readWord?_eq_none_iff : readWord? negative cs = none ↔ cs.map Char.toLower ∉ words := by
  simp only [readWord?, words, List.mem_cons, List.not_mem_nil, or_false]
  split_ifs <;> simp_all

/-- Of what begins with no digit, sign or point, only the words are numbers. -/
theorem read?_cons (hsign : c ≠ '-' ∧ c ≠ '+') (hpoint : c ≠ '.') (hdigit : c.isDigit = false) :
    read? (c :: cs) = readWord? false (c :: cs) := by
  have hreadSign : readSign (c :: cs) = (false, c :: cs) := by
    unfold readSign
    split <;> simp_all
  have hplaces : readPlaces (c :: cs) = ([], 0, c :: cs) := by
    simp only [readPlaces, List.takeWhile_cons, List.dropWhile_cons, hdigit]
    split <;> simp_all
  have hmagnitude : readMagnitude? false (c :: cs) = none := by
    rw [readMagnitude?, hplaces]
    rfl
  simp only [read?, hreadSign, hmagnitude, Option.or_none]

theorem ofRank_ne_nan (negative : Bool) (rank : Nat) : ofRank negative rank ≠ .nan := by
  rw [ofRank]
  split_ifs <;> simp

theorem ne_nan_of_readMagnitude? (h : readMagnitude? negative cs = some n) : n ≠ .nan := by
  simp only [readMagnitude?] at h
  split_ifs at h
  obtain ⟨exponent, -, rfl⟩ := Option.map_eq_some_iff.mp h
  exact ofRank_ne_nan _ _

/-- What is written without letters is a number indeed: only the word `nan` is not. -/
theorem ne_nan_of_read? (h : read? cs = some n) (hletters : 'n' ∉ cs.map Char.toLower) :
    n ≠ .nan := by
  have hsuffix : (readSign cs).2 <:+ cs := by
    unfold readSign
    split
    · exact List.suffix_cons _ _
    · exact List.suffix_cons _ _
    · exact List.suffix_rfl
  -- Every word has an `n` in it.
  have hword : readWord? (readSign cs).1 (readSign cs).2 = none := by
    rw [readWord?_eq_none_iff]
    intro hmem
    have hall : ∀ word ∈ words, 'n' ∈ word := by decide
    exact hletters ((hsuffix.map Char.toLower).subset (hall _ hmem))
  change (readWord? (readSign cs).1 (readSign cs).2).or (readMagnitude? _ _) = some n at h
  rw [hword, Option.none_or] at h
  exact ne_nan_of_readMagnitude? h

end Number

/-! ## What an assignment reads -/

namespace Value

theorem read_eq (text : String) :
    read text =
      if Text.trimChars text.toList = "true".toList then .bool true
      else if Text.trimChars text.toList = "false".toList then .bool false
      else ((Number.read? (Text.trimChars text.toList)).map .number).getD
        (.string (String.ofList (unquoted (Text.trimChars text.toList)))) := by
  have htrue : "true".toList = ['t', 'r', 'u', 'e'] := by decide
  have hfalse : "false".toList = ['f', 'a', 'l', 's', 'e'] := by decide
  rw [read, htrue, hfalse]
  split
  next h => rw [if_pos h]
  next h => rw [h, if_neg (by decide), if_pos rfl]
  next htrue hfalse =>
    rw [if_neg htrue, if_neg hfalse]
    cases Number.read? (Text.trimChars text.toList) <;> rfl

/-- What stands between quotes is read as it is, even if there are such quotes in it. -/
theorem read_of_quoted {text : String} {quote : Char} {cs : List Char}
    (hquote : quote = '\'' ∨ quote = '"')
    (htext : Text.trimChars text.toList = quote :: (cs ++ [quote])) :
    read text = .string (String.ofList cs) := by
  -- With a quote in front, the text is no number and no truth value.
  have hother : (quote ≠ '-' ∧ quote ≠ '+') ∧ quote ≠ '.' ∧ quote.isDigit = false ∧
      quote.toLower ≠ 'n' ∧ quote.toLower ≠ 'i' ∧ quote ≠ 't' ∧ quote ≠ 'f' := by
    rcases hquote with rfl | rfl <;> decide
  obtain ⟨hsign, hpoint, hdigit, hn, hi, ht, hf⟩ := hother
  have hread : Number.read? (quote :: (cs ++ [quote])) = none := by
    rw [Number.read?_cons hsign hpoint hdigit, Number.readWord?_eq_none_iff]
    simp [Number.words, hn, hi]
  have hunquoted : unquoted (quote :: (cs ++ [quote])) = cs := by
    simp [unquoted, hquote]
  rw [read_eq, htext, if_neg (by simp [ht]), if_neg (by simp [hf]), hread, hunquoted]
  rfl

theorem agrees_self_iff {value : Value} : value.agrees value = true ↔ value ≠ .number .nan := by
  cases value <;> simp [agrees, Number.equals_self_iff]

end Value

namespace When

/-! ## Texts of one token -/

theorem not_continues_of_isBlank {c : Char} (h : Text.isBlank c = true) :
    continuesWord c = false ∧ continuesNumber c = false := by
  have hall : blanks.all (fun c => !continuesWord c && !continuesNumber c) = true := by
    decide +kernel
  simpa using List.all_eq_true.mp hall c (mem_blanks h)

/-- A token ends with a character, which is no blank. -/
theorem TokenKind.Written.getLast?_isBlank {kind : TokenKind} {lexeme : List Char}
    (h : kind.Written lexeme) : ∀ c ∈ lexeme.getLast?, Text.isBlank c = false := by
  intro c hc
  by_contra hblank
  have hblank : Text.isBlank c = true := by simpa using hblank
  obtain ⟨hword, hnumber, hmark⟩ := not_starts_of_isBlank hblank
  obtain ⟨hword', hnumber'⟩ := not_continues_of_isBlank hblank
  have hmem : c ∈ lexeme := List.mem_of_getLast? hc
  cases h with
  | word hstart hcontinue =>
    rcases List.mem_cons.mp hmem with rfl | hmem
    · simp [hword] at hstart
    · simp [hcontinue c hmem] at hword'
  | number hstart hcontinue =>
    rcases List.mem_cons.mp hmem with rfl | hmem
    · simp [hnumber] at hstart
    · simp [hcontinue c hmem] at hnumber'
  | @string quote cs hquote =>
    have hlast : (quote :: (cs ++ [quote])).getLast? = some quote :=
      List.getLast?_concat (l := quote :: cs)
    obtain rfl : quote = c := Option.some.inj (hlast.symm.trans hc)
    simp [marks, hquote] at hmark
  | _ => simp_all [marks]

/-- A token neither begins nor ends with a blank. -/
theorem TokenKind.Written.trimChars_append {kind : TokenKind} {front lexeme back : List Char}
    (h : kind.Written lexeme) (hfront : ∀ c ∈ front, Text.isBlank c = true)
    (hback : ∀ c ∈ back, Text.isBlank c = true) :
    Text.trimChars (front ++ (lexeme ++ back)) = lexeme := by
  obtain ⟨c, cs, rfl, hhead⟩ := h.exists_eq_cons
  exact Text.trimChars_append hfront hback (by simp) (by simpa using hhead) h.getLast?_isBlank

theorem TokenKind.Written.trimChars {kind : TokenKind} {lexeme : List Char}
    (h : kind.Written lexeme) : Text.trimChars lexeme = lexeme := by
  have htrim : Text.trimChars ([] ++ (lexeme ++ [])) = lexeme :=
    h.trimChars_append (by simp) (by simp)
  rwa [List.nil_append, List.append_nil] at htrim

theorem Spells.isBlank {cs : List Char} (h : Spells cs []) : ∀ c ∈ cs, Text.isBlank c = true := by
  generalize hkinds : ([] : List TokenKind) = kinds at h
  induction h with
  | nil => simp
  | blank hblank _ ih => exact List.forall_mem_cons.mpr ⟨hblank, ih hkinds⟩
  | token => cases hkinds

/-- A text of one token is the token, once the blanks around it are trimmed away. -/
theorem Spells.written_trimChars {cs : List Char} {kind : TokenKind} (h : Spells cs [kind]) :
    kind.Written (Text.trimChars cs) := by
  -- The blanks in front are collected one by one; those behind follow the token.
  have hcollect : ∀ front : List Char, (∀ c ∈ front, Text.isBlank c = true) →
      kind.Written (Text.trimChars (front ++ cs)) := by
    generalize hkinds : [kind] = kinds at h
    induction h with
    | nil => cases hkinds
    | @blank c cs _ hblank _ ih =>
      intro front hfront
      rw [List.append_cons]
      exact ih hkinds (front ++ [c]) (by simpa [or_imp, forall_and] using ⟨hfront, hblank⟩)
    | token hwritten _ h =>
      cases hkinds
      intro front hfront
      rwa [hwritten.trimChars_append hfront h.isBlank]
  exact hcollect [] (by simp)

/-! ## A value in both places -/

/-- What a number is written with is no letter. -/
theorem toLower_ne_of_isNumeral {c : Char} (h : startsNumber c = true ∨ continuesNumber c = true) :
    c.toLower ≠ 'n' := by
  have hdigit : c.isDigit = true → c.toLower ≠ 'n' := by
    intro hdigit
    rw [Char.isDigit_iff_toNat] at hdigit
    have hhigh : c.toNat ≤ 57 := hdigit.2
    have hself : c.toLower = c := by
      refine dif_neg fun hupper => ?_
      have hlow : 65 ≤ c.toNat := UInt32.le_iff_toNat_le.mp hupper.1
      omega
    rw [hself]
    rintro rfl
    exact absurd hhigh (by decide)
  simp only [startsNumber, continuesNumber, Bool.or_eq_true, beq_iff_eq] at h
  rcases h with (h | rfl) | h | rfl
  · exact hdigit h
  · decide
  · exact hdigit h
  · decide

variable {text : String}

/-- A string between quotes is read as such. -/
theorem read_of_string {s : String}
    (h : (TokenKind.string s).Written (Text.trimChars text.toList)) :
    Value.read text = .string s := by
  generalize hlexeme : Text.trimChars text.toList = lexeme at h
  cases h with
  | string hquote => exact Value.read_of_quoted hquote hlexeme

/-- A number is read as such. -/
theorem read_of_number {n : Number}
    (h : (TokenKind.number n).Written (Text.trimChars text.toList)) :
    Value.read text = .number n ∧ n ≠ .nan := by
  rw [Value.read_eq]
  generalize Text.trimChars text.toList = lexeme at h
  cases h with
  | @number c cs _ hstart hcontinue hread =>
    have ht : c ≠ 't' := by
      rintro rfl
      exact absurd hstart (by decide)
    have hf : c ≠ 'f' := by
      rintro rfl
      exact absurd hstart (by decide)
    have hletters : 'n' ∉ (c :: cs).map Char.toLower := by
      simp only [List.map_cons, List.mem_cons, List.mem_map, not_or, not_exists, not_and]
      exact ⟨(toLower_ne_of_isNumeral (Or.inl hstart)).symm, fun d hd =>
        toLower_ne_of_isNumeral (Or.inr (hcontinue d hd))⟩
    rw [if_neg (by simp [ht]), if_neg (by simp [hf]), hread]
    exact ⟨rfl, Number.ne_nan_of_read? hread hletters⟩

/-- A word is written as it is. -/
theorem exists_of_written_word {word : String} {lexeme : List Char}
    (h : (TokenKind.word word).Written lexeme) :
    lexeme = word.toList ∧ ∃ c cs, word.toList = c :: cs ∧ startsWord c = true ∧
      ∀ d ∈ cs, continuesWord d = true := by
  cases h with
  | @word c cs hstart hcontinue =>
    rw [String.toList_ofList]
    exact ⟨rfl, c, cs, rfl, hstart, hcontinue⟩

/-- A text that is a token of the same text is written as it is. -/
theorem written_of_tokenize {word : String} {offset : Nat}
    (h : tokenize word = .ok [⟨.word word, offset⟩]) :
    (TokenKind.word word).Written word.toList := by
  have hspells : Spells word.toList [.word word] := spells_iff.mpr ⟨_, h, rfl⟩
  have hwritten := hspells.written_trimChars
  rwa [(exists_of_written_word hwritten).1] at hwritten

/-- A word is read as in a when-clause, unless it is read as a number. -/
theorem read_of_word {word : String}
    (h : (TokenKind.word word).Written (Text.trimChars text.toList)) :
    Value.read text =
      ((Number.readWord? false word.toList).map .number).getD (Literal.word word).value := by
  obtain ⟨htrim, c, cs, hcons, hstart, -⟩ := exists_of_written_word h
  have hother : ∀ d, startsWord d = false → c ≠ d := by
    rintro d hd rfl
    simp [hd] at hstart
  have hdigit : c.isDigit = false := by
    by_contra hdigit
    have hnumber : startsNumber c = true := by simp_all [startsNumber]
    simp [not_startsWord_of_startsNumber hnumber] at hstart
  have hread : Number.read? word.toList = Number.readWord? false word.toList := by
    rw [hcons]
    exact Number.read?_cons ⟨hother '-' (by decide), hother '+' (by decide)⟩
      (hother '.' (by decide)) hdigit
  have hunquoted : Value.unquoted word.toList = word.toList := by
    simp [hcons, Value.unquoted, hother '\'' (by decide), hother '"' (by decide)]
  rw [Value.read_eq, htrim, hread, hunquoted, String.ofList_toList, Literal.value]
  simp only [String.toList_inj]
  -- The words for truth values are no numbers.
  by_cases htrue : word = "true"
  · rw [htrue]
    rfl
  by_cases hfalse : word = "false"
  · rw [hfalse]
    rfl
  rw [if_neg htrue, if_neg hfalse, if_neg htrue, if_neg hfalse]

/-- What an assignment reads agrees with the value in a when-clause, unless the value is a word that
is read as a number. -/
theorem agrees_read_iff {literal : Literal}
    (h : literal.kind.Written (Text.trimChars text.toList)) :
    literal.value.agrees (Value.read text) = true ↔ ¬literal.kind.IsNumberWord := by
  cases literal with
  | string s =>
    rw [read_of_string h]
    exact iff_of_true (Value.agrees_self_iff.mpr (by simp [Literal.value])) id
  | number n =>
    obtain ⟨hread, hnan⟩ := read_of_number h
    rw [hread]
    exact iff_of_true (Value.agrees_self_iff.mpr (by simpa [Literal.value] using hnan)) id
  | word word =>
    -- A word stands for a truth value or for a string, and so agrees with no number.
    have hvalue : (∀ n, (Literal.word word).value.agrees (.number n) = false) ∧
        (Literal.word word).value ≠ .number .nan := by
      rw [Literal.value]
      split_ifs <;> simp [Value.agrees]
    rw [read_of_word h, Literal.kind, TokenKind.IsNumberWord]
    cases hread : Number.readWord? false word.toList with
    | none =>
      exact iff_of_true (Value.agrees_self_iff.mpr hvalue.2) (Number.readWord?_eq_none_iff.mp hread)
    | some n =>
      have hword : Number.readWord? false word.toList ≠ none := by simp [hread]
      rw [ne_eq, Number.readWord?_eq_none_iff] at hword
      exact iff_of_false (by simp [hvalue.1 n]) hword

/-- A word can stand in front of an equals sign. -/
theorem isPlainKey_of_written {key : String} (h : (TokenKind.word key).Written key.toList) :
    Context.IsPlainKey key := by
  obtain ⟨-, c, cs, hcons, hstart, hcontinue⟩ := exists_of_written_word h
  refine ⟨?_, by rw [Text.trim, h.trimChars, String.ofList_toList], ?_⟩
  · rintro rfl
    cases hcons
  · rw [hcons, List.mem_cons, not_or]
    refine ⟨(ne_of_mem_marks (Or.inl hstart) '=' (by decide)).symm, fun hmem => ?_⟩
    exact absurd (hcontinue '=' hmem) (by decide)

/-- An assignment is cut at the equals sign, since there is none in a key. -/
theorem readAssignment?_of_word {key : String} (h : (TokenKind.word key).Written key.toList) :
    Context.readAssignment? (key ++ "=" ++ text) = some (key, Value.read text) :=
  Context.readAssignment?_eq_some_iff.mpr ((isPlainKey_of_written h).assigns text)

/-- A comparison with a value is parsed. -/
theorem parse_of_comparison {source key : String} (operator : Comparison) {mark : Char}
    {literal : Literal} (hoperator : operator.kind.Written [mark, '='])
    (hkey : (TokenKind.word key).Written key.toList) (hvalue : Spells text.toList [literal.kind])
    (hsource : source.toList = key.toList ++ ' ' :: ([mark, '='] ++ ' ' :: text.toList)) :
    parse source = .ok (operator.expr key literal.value) := by
  let d := (Derivation.comparison key operator literal).alone
  have hspells : Spells source.toList d.kinds := by
    have hspace : ∀ {kind : TokenKind} {cs : List Char}, ∀ c ∈ (' ' :: cs).head?,
        kind.takes c = false := by
      rintro kind cs c ⟨⟩
      exact takes_eq_false kind (Or.inl rfl)
    rw [hsource]
    exact .token hkey hspace (.blank (by decide) (.token hoperator hspace
      (.blank (by decide) hvalue)))
  have hcost : d.cost = 0 := rfl
  rw [d.parse_of_spells hspells, hcost]
  rfl

/-- Let a text be one token that is a value, and let it stand both behind the operator of a
comparison with a key and in an assignment to this key. In the context that the assignment makes,
`==` holds and `!=` does not, unless the token is a word that is read as a number. If it is, then
`!=` holds and `==` does not. -/
theorem eval_of_same_text {key text : String} {token : Token} {offset : Nat} {value : Value}
    {rest : List Token} (hkey : tokenize key = .ok [⟨.word key, 0⟩])
    (htext : tokenize text = .ok [token]) (hvalue : parseValue offset [token] = .ok (value, rest)) :
    ∃ c, Context.empty.assign [key ++ "=" ++ text] = .ok c ∧
      parse (key ++ " == " ++ text) = .ok (.equals key value) ∧
      parse (key ++ " != " ++ text) = .ok (.differs key value) ∧
      (¬token.kind.IsNumberWord →
        (Expr.equals key value).eval c = true ∧ (Expr.differs key value).eval c = false) ∧
      (token.kind.IsNumberWord →
        (Expr.equals key value).eval c = false ∧ (Expr.differs key value).eval c = true) := by
  obtain ⟨literal, _, htokens, hkind, rfl⟩ := exists_literal_of_parseValue hvalue
  cases htokens
  have hspells : Spells text.toList [literal.kind] := spells_iff.mpr ⟨_, htext, by simp [hkind]⟩
  have hkeyWritten := written_of_tokenize hkey
  have hagrees := agrees_read_iff hspells.written_trimChars
  rw [← hkind] at hagrees
  refine ⟨Context.empty.set key (Value.read text), ?_, ?_, ?_, fun hword => ?_, fun hword => ?_⟩
  · simp [Context.assign, readAssignment?_of_word hkeyWritten]
  · exact parse_of_comparison .equals .equals hkeyWritten hspells (by simp)
  · exact parse_of_comparison .differs .differs hkeyWritten hspells (by simp)
  · simp [Expr.eval, hagrees.mpr hword]
  · have hfalse := mt hagrees.mp (not_not.mpr hword)
    simp [Expr.eval, hfalse]

/-- A string between quotes is the same value in both places. -/
theorem eval_of_quoted_text :
    ∃ c, Context.empty.assign ["title='two words' "] = .ok c ∧
      parse "title == 'two words' " = .ok (.equals "title" (.string "two words")) ∧
      (Expr.equals "title" (.string "two words")).eval c = true ∧
      (Expr.differs "title" (.string "two words")).eval c = false := by
  have hkey : tokenize "title" = .ok [⟨.word "title", 0⟩] := by decide +kernel
  have htext : tokenize "'two words' " = .ok [⟨.string "two words", 0⟩] := by decide +kernel
  have hvalue : parseValue 9 [⟨.string "two words", 0⟩] = .ok (.string "two words", []) := rfl
  obtain ⟨c, hassign, hequals, -, hholds, -⟩ := eval_of_same_text hkey htext hvalue
  exact ⟨c, hassign, hequals, hholds id⟩

/-- The word `inf` is a string behind an operator, but an infinite number in an assignment. -/
theorem eval_of_inf :
    tokenize "mode" = .ok [⟨.word "mode", 0⟩] ∧ tokenize "inf" = .ok [⟨.word "inf", 0⟩] ∧
      parseValue 0 [⟨.word "inf", 0⟩] = .ok (.string "inf", []) ∧
      ∃ c equal differ, Context.empty.assign ["mode=inf"] = .ok c ∧
        parse "mode == inf" = .ok equal ∧ equal.eval c = false ∧
        parse "mode != inf" = .ok differ ∧ differ.eval c = true := by
  have hkey : tokenize "mode" = .ok [⟨.word "mode", 0⟩] := by decide +kernel
  have hvalue : tokenize "inf" = .ok [⟨.word "inf", 0⟩] := by decide +kernel
  have hwritten := written_of_tokenize hkey
  have hspells : Spells "inf".toList [(Literal.word "inf").kind] :=
    spells_iff.mpr ⟨_, hvalue, rfl⟩
  have hequals : parse "mode == inf" = .ok (.equals "mode" (.string "inf")) :=
    parse_of_comparison .equals .equals hwritten hspells (by decide)
  have hdiffers : parse "mode != inf" = .ok (.differs "mode" (.string "inf")) :=
    parse_of_comparison .differs .differs hwritten hspells (by decide)
  exact ⟨hkey, hvalue, rfl, Context.empty.set "mode" (.number (.infinite false)), _, _,
    by decide +kernel, hequals, by decide, hdiffers, by decide⟩

end When

end KeyChord
