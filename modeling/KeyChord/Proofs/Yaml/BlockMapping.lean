import KeyChord.Proofs.Lists
import KeyChord.Yaml.Node
import Mathlib.Data.List.TakeWhile
import Mathlib.Tactic.SplitIfs

/-!
# Block mappings of plain words

The simplest texts of the format have one line for each field: a word, a colon, a space and another
word. Such a text is a document, a mapping of the words in their order.

The module introduces:

* `IsWord cs`: the characters need no quotes.
* `fieldLine field`: the line of a field.
* `fieldTokens field`: its tokens. That a word is a key shows at the colon only, when the marks in
  front of it are put between tokens that are there already.
* `fieldNodes field`: its key and its value.

The main statement is `Document.read_fieldLines`, from `tokenize_fieldLines` for the lexer and
`Document.ofTokens_fieldTokens` for the builder.
-/

namespace KeyChord.Yaml

/-! ## Words -/

/-- A character of an unquoted word: an ASCII letter or digit, or the underscore. -/
def isWordChar (c : Char) : Bool :=
  c.isAlphanum || c == '_'

/-- The characters that mean something to the format. -/
def signs : List Char :=
  [' ', '\t', '\n', '\r', '\x85', '\u2028', '\u2029', byteOrderMark, '%', '-', '.', '?', ':', '*',
    '&', '!', '|', '>', '\'', '"', '#', '@', ',', '[', ']', '\x7b', '\x7d', Char.ofNat 0x60]

section WordChar

variable {c : Char}

theorem beq_sign_of_isWordChar (h : isWordChar c = true) : ∀ sign ∈ signs, (c == sign) = false := by
  have hsigns : signs.all (!isWordChar ·) = true := by
    decide
  intro sign hsign
  rw [beq_eq_false_iff_ne]
  rintro rfl
  simpa [h] using List.all_eq_true.mp hsigns c hsign

theorem isSeparator_of_isWordChar (h : isWordChar c = true) : isSeparator c = false := by
  have hne := beq_sign_of_isWordChar h
  simp only [signs, List.forall_mem_cons] at hne
  simp only [isSeparator, isSpace, isBreak, hne, Bool.or_self]

theorem isIndicator_of_isWordChar (h : isWordChar c = true) : Lexer.isIndicator c = false := by
  have hsigns : ",[]#&*!|>'\"%@".toList ⊆ signs := by
    decide
  have hne := beq_sign_of_isWordChar h
  rw [Lexer.isIndicator, String.contains_char_eq, hne _ (by decide), hne _ (by decide),
    hne _ (by decide), Bool.or_false, Bool.or_false, Bool.or_false, decide_eq_false_iff_not]
  intro hmem
  have := hne c (hsigns hmem)
  simp at this

theorem isAllowed_of_isWordChar (h : isWordChar c = true) : isAllowed c = true := by
  have hrange : 0x20 ≤ c.toNat ∧ c.toNat ≤ 0x7E := by
    rw [isWordChar, Bool.or_eq_true, beq_iff_eq] at h
    rcases h with h | rfl
    · unfold Char.isAlphanum Char.isAlpha Char.isUpper Char.isLower Char.isDigit at h
      simp only [Bool.or_eq_true, Bool.and_eq_true, decide_eq_true_eq, ge_iff_le,
        UInt32.le_iff_toNat_le, Char.toNat_val, Char.reduceToNat] at h
      omega
    · decide
  unfold isAllowed
  simp [hrange.1, hrange.2]

theorem isBreak_of_isWordChar (h : isWordChar c = true) : isBreak c = false := by
  have := isSeparator_of_isWordChar h
  rw [isSeparator, Bool.or_eq_false_iff] at this
  exact this.2

/-- A word is a plain scalar. -/
theorem Lexer.lexToken_of_isWordChar {l : Lexer} {rest : List Char} (h : isWordChar c = true)
    (hrest : l.place.rest = c :: rest) : l.lexToken c = l.lexPlain := by
  have hne := beq_sign_of_isWordChar h
  have hmarker : ∀ sign ∈ signs, l.place.atMarker sign = false := by
    intro sign hsign
    have hne' : c ≠ sign := beq_eq_false_iff_ne.mp (hne sign hsign)
    simp [Cursor.atMarker, hrest, hne']
  unfold lexToken
  simp only [hmarker _ (show '-' ∈ signs by decide), hmarker _ (show '.' ∈ signs by decide),
    isSeparator_of_isWordChar h, isIndicator_of_isWordChar h]
  simp only [signs, List.forall_mem_cons] at hne
  simp only [hne, Bool.and_false, Bool.false_and, Bool.or_self, Bool.false_eq_true, if_false]

end WordChar

/-- An unquoted word. -/
structure IsWord (cs : List Char) : Prop where
  ne_nil : cs ≠ []
  isWordChar : ∀ c ∈ cs, isWordChar c = true

theorem isWord_of_all {cs : List Char} (h : cs ≠ [] ∧ cs.all isWordChar = true) : IsWord cs :=
  ⟨h.1, List.all_eq_true.mp h.2⟩

theorem plainRun_append {word rest : List Char} (hword : ∀ c ∈ word, isWordChar c = true)
    (hrest : plainRun false rest = .ok []) : plainRun false (word ++ rest) = .ok word := by
  induction word with
  | nil => exact hrest
  | cons c word ih =>
    rw [List.forall_mem_cons] at hword
    have hcolon := beq_sign_of_isWordChar hword.1 ':' (by decide)
    rw [List.cons_append, plainRun, ih hword.2]
    simp [isSeparator_of_isWordChar hword.1, hcolon, Except.map]

theorem plainRun_colon (rest : List Char) : plainRun false (':' :: ' ' :: rest) = .ok [] := rfl

theorem plainRun_newline (rest : List Char) : plainRun false ('\n' :: rest) = .ok [] := rfl

theorem Cursor.skip_append {c : Cursor} {word rest : List Char} (h : c.rest = word ++ rest) :
    c.skip word.length = ⟨rest, c.line, c.column + word.length, c.index + byteCount word⟩ := by
  simp [skip, h]

/-- Neither a comment nor the mark of a document starts with the character of a word. -/
theorem Cursor.not_atDocumentMarker_of_isWord {c : Cursor} {word rest : List Char}
    (hword : IsWord word) (hrest : c.rest = word ++ rest) :
    (c.atDocumentMarker || c.at? '#') = false := by
  obtain ⟨char, chars, rfl⟩ := List.exists_cons_of_ne_nil hword.ne_nil
  have hne := beq_sign_of_isWordChar (hword.isWordChar char List.mem_cons_self)
  simp only [signs, List.forall_mem_cons, beq_eq_false_iff_ne] at hne
  simp [atDocumentMarker, atMarker, at?, hrest, hne]

theorem readPlain_before_colon {c : Cursor} {word rest : List Char} {indent : Nat}
    (hword : IsWord word) (hrest : c.rest = word ++ ':' :: ' ' :: rest) :
    readPlain false indent c = .ok (word, false, c.skip word.length) := by
  have hrun : plainRun false c.rest = .ok word := by
    rw [hrest]
    exact plainRun_append hword.isWordChar (plainRun_colon rest)
  have hbehind : (c.skip word.length).rest = ':' :: ' ' :: rest := by
    rw [Cursor.skip_append hrest]
  rw [readPlain, readPlainWords, Cursor.not_atDocumentMarker_of_isWord hword hrest]
  simp only [Bool.false_eq_true, if_false]
  split
  case h_1 heq => simp [hrun] at heq
  case h_2 heq => exact absurd (by simpa [hrun] using heq) hword.ne_nil
  case h_3 char chars heq =>
    obtain rfl : word = char :: chars := by simpa [hrun] using heq
    simp only [hbehind, List.head?_cons]
    rfl

/-- Blanks end where a word starts. -/
theorem Cursor.readBlanks_of_word {c : Cursor} {indent : Nat} {broken : Bool}
    {spaces breaks : List Char} (h : c.rest.head?.all isWordChar = true) :
    c.readBlanks indent broken spaces breaks = .ok (spaces, breaks, broken, c) := by
  rw [readBlanks]
  split
  case h_1 => rfl
  case h_2 char rest heq =>
    have hword : isWordChar char = true := by simpa [heq] using h
    have hseparator := isSeparator_of_isWordChar hword
    rw [isSeparator, Bool.or_eq_false_iff] at hseparator
    simp [hseparator.1, hseparator.2]

theorem Cursor.readBlanks_newline {c : Cursor} {rest : List Char} {indent : Nat}
    (h : c.rest = '\n' :: rest) (hnext : rest.head?.all isWordChar = true) :
    c.readBlanks indent false [] [] =
      .ok ([], ['\n'], true, ⟨rest, c.line + 1, 0, c.index + 1⟩) := by
  have htake : c.takeBreak = (['\n'], ⟨rest, c.line + 1, 0, c.index + 1⟩) := by
    simp [takeBreak, h, byteCount]
    rfl
  rw [readBlanks]
  split
  case h_1 heq => simp [h] at heq
  case h_2 char rest' heq =>
    obtain ⟨rfl, rfl⟩ : '\n' = char ∧ rest = rest' := by simpa [h] using heq
    have hspace : isSpace '\n' = false := by decide
    have hbreak : isBreak '\n' = true := by decide
    simp only [hspace, hbreak, htake, Bool.false_eq_true, if_false, dif_pos, List.nil_append]
    exact readBlanks_of_word hnext

theorem readPlain_at_line_end {c : Cursor} {word rest : List Char} {indent : Nat}
    (hword : IsWord word) (hrest : c.rest = word ++ '\n' :: rest) (hindent : 0 < indent)
    (hnext : rest.head?.all isWordChar = true) :
    readPlain false indent c =
      .ok (word, true, ⟨rest, c.line + 1, 0, c.index + Cursor.byteCount word + 1⟩) := by
  have hrun : plainRun false c.rest = .ok word := by
    rw [hrest]
    exact plainRun_append hword.isWordChar (plainRun_newline rest)
  have hbehind := Cursor.skip_append hrest
  rw [readPlain, readPlainWords, Cursor.not_atDocumentMarker_of_isWord hword hrest]
  simp only [Bool.false_eq_true, if_false]
  split
  case h_1 heq => simp [hrun] at heq
  case h_2 heq => exact absurd (by simpa [hrun] using heq) hword.ne_nil
  case h_3 char chars heq =>
    obtain rfl : word = char :: chars := by simpa [hrun] using heq
    have hblanks : (c.skip (char :: chars).length).readBlanks indent false [] [] =
        .ok ([], ['\n'], true,
          ⟨rest, c.line + 1, 0, c.index + Cursor.byteCount (char :: chars) + 1⟩) := by
      rw [hbehind]
      exact Cursor.readBlanks_newline rfl hnext
    have hseparator : (c.skip (char :: chars).length).rest.head?.any isSeparator = true := by
      rw [hbehind]
      rfl
    rw [if_pos hseparator]
    split
    case h_1 heq =>
      rw [hblanks] at heq
      cases heq
    case h_2 heq =>
      rw [hblanks, Except.ok.injEq, Prod.mk.injEq, Prod.mk.injEq, Prod.mk.injEq] at heq
      obtain ⟨rfl, rfl, rfl, rfl⟩ := heq
      simp [hindent]

/-! ## Tokens -/

namespace Lexer

theorem skipBlanks_of_starts {c : Cursor} {inFlow keyAllowed : Bool}
    (h : c.rest.head?.all (fun char => isWordChar char || char == ':') = true) :
    skipBlanks c inFlow keyAllowed = c := by
  obtain ⟨rest, line, column, index⟩ := c
  cases rest with
  | nil => simp [skipBlanks, Cursor.at?, Cursor.skipWhile, Cursor.skip, Cursor.byteCount]
  | cons char rest =>
    have hne : (char == ' ') = false ∧ (char == '\t') = false ∧ (char == '#') = false ∧
        (char == byteOrderMark) = false := by
      rw [List.head?_cons, Option.all_some, Bool.or_eq_true, beq_iff_eq] at h
      rcases h with h | rfl
      · have hsigns := beq_sign_of_isWordChar h
        exact ⟨hsigns _ (by decide), hsigns _ (by decide), hsigns _ (by decide),
          hsigns _ (by decide)⟩
      · decide
    simp only [beq_eq_false_iff_ne] at hne
    simp [skipBlanks, Cursor.at?, Cursor.skipWhile, Cursor.skip, Cursor.byteCount, hne]

theorem skipToToken_of_starts {c : Cursor} {inFlow keyAllowed : Bool}
    (h : c.rest.head?.all (fun char => isWordChar char || char == ':') = true) :
    skipToToken c inFlow keyAllowed = (c, keyAllowed) := by
  have hbreak : c.rest.head?.any isBreak = false := by
    cases hrest : c.rest with
    | nil => rfl
    | cons char rest =>
      rw [hrest, List.head?_cons, Option.all_some, Bool.or_eq_true, beq_iff_eq] at h
      rw [List.head?_cons, Option.any_some]
      rcases h with h | rfl
      · exact isBreak_of_isWordChar h
      · decide
  rw [skipToToken]
  simp [skipBlanks_of_starts h, hbreak]

theorem skipToToken_space {c : Cursor} {inFlow keyAllowed : Bool} {char : Char} {rest : List Char}
    (hrest : c.rest = ' ' :: char :: rest) (h : isWordChar char = true) :
    skipToToken c inFlow keyAllowed = (c.skip 1, keyAllowed) := by
  have hne := beq_sign_of_isWordChar h
  simp only [signs, List.forall_mem_cons, beq_eq_false_iff_ne] at hne
  have hblanks : skipBlanks c inFlow keyAllowed = c.skip 1 := by
    simp [skipBlanks, Cursor.at?, Cursor.skipWhile, Cursor.skip, hrest, hne, byteOrderMark]
  rw [skipToToken, hblanks]
  simp [Cursor.skip, hrest, isBreak_of_isWordChar h]

/-- Nothing is closed by a token that does not stand further left than the innermost collection. -/
theorem closeBlocks_eq_self {l : Lexer} {stays : Nat → Bool}
    (h : l.indents.head?.all stays = true) : l.closeBlocks stays = l := by
  have hclosed : l.indents.takeWhile (!stays ·) = [] := by
    cases hindents : l.indents with
    | nil => rfl
    | cons indent indents =>
      rw [hindents, List.head?_cons, Option.all_some] at h
      simp [h]
  simp [closeBlocks, hclosed]

/-- Outside flow collections only the last candidate can become stale. -/
theorem refreshAll_eq_self {l : Lexer} (hflow : l.enclosing = [])
    (hfresh : ∀ found ∈ l.candidate, isStale found l.place = false) : l.refreshAll = .ok l := by
  have hcandidate : refresh l.place l.candidate = .ok l.candidate := by
    cases hl : l.candidate with
    | none => rfl
    | some found => simp [refresh, hfresh found hl]
  rw [refreshAll, hflow, hcandidate]
  obtain ⟨place, tokens, indents, keyAllowed, candidate, enclosing⟩ := l
  cases hflow
  rfl

/-- The lexer outside flow collections. -/
def inBlock (place : Cursor) (tokens : List Token) (indents : List Nat) (keyAllowed : Bool)
    (candidate : Option KeyCandidate) : Lexer :=
  { place, tokens := tokens.toArray, indents, keyAllowed, candidate }

/-- The mark in front of the first key of a mapping. -/
def mappingMark (indents : List Nat) : List Token :=
  if indents = [] then [.blockMapping] else []

section Block

variable {word name value more rest : List Char} {tokens : List Token} {indents : List Nat}
  {keyAllowed broken required : Bool} {candidate : Option KeyCandidate}
  {place next start : Cursor} {l : Lexer} {c : Char} {fuel : Nat}

/-- The lexer goes on after the blanks, if nothing becomes stale there and nothing is closed. -/
theorem lexAll_inBlock (hskip : skipToToken place false keyAllowed = (next, keyAllowed))
    (hfresh : ∀ found ∈ candidate, isStale found next = false)
    (hindents : indents.head?.all (· ≤ next.column) = true) :
    lexAll (fuel + 1) (inBlock place tokens indents keyAllowed candidate) =
      match next.rest.head? with
      | none => (inBlock next tokens indents keyAllowed candidate).closeAll.map (·.tokens)
      | some c =>
        (inBlock next tokens indents keyAllowed candidate).lexToken c >>= lexAll fuel := by
  have hplace : skipToToken (inBlock place tokens indents keyAllowed candidate).place
      (inBlock place tokens indents keyAllowed candidate).inFlow
      (inBlock place tokens indents keyAllowed candidate).keyAllowed = (next, keyAllowed) := hskip
  have hrefresh : (inBlock next tokens indents keyAllowed candidate).refreshAll =
      .ok (inBlock next tokens indents keyAllowed candidate) := refreshAll_eq_self rfl hfresh
  have hclosed := closeBlocks_eq_self (l := inBlock next tokens indents keyAllowed candidate)
    hindents
  rw [lexAll, hplace]
  show (refreshAll (inBlock next tokens indents keyAllowed candidate) >>= _) = _
  rw [hrefresh]
  show (match next.rest.head? with
    | none => closeAll (closeBlocks _ _) >>= _
    | some c => lexToken (closeBlocks _ _) c >>= lexAll fuel) = _
  rw [hclosed]
  cases next.rest.head? with
  | none => cases closeAll (inBlock next tokens indents keyAllowed candidate) <;> rfl
  | some c => rfl

/-- One more token is read. -/
theorem lexAll_of_lexToken (hskip : skipToToken place false keyAllowed = (next, keyAllowed))
    (hfresh : ∀ found ∈ candidate, isStale found next = false)
    (hindents : indents.head?.all (· ≤ next.column) = true) (hrest : next.rest = c :: rest)
    (htoken : (inBlock next tokens indents keyAllowed candidate).lexToken c = .ok l) :
    lexAll (fuel + 1) (inBlock place tokens indents keyAllowed candidate) = lexAll fuel l := by
  rw [lexAll_inBlock hskip hfresh hindents, hrest, List.head?_cons]
  show lexToken _ c >>= lexAll fuel = _
  rw [htoken]
  rfl

/-- A plain scalar becomes a token, and may be a key if one is allowed. -/
theorem lexPlain_inBlock
    (hread : readPlain false (indents.head?.elim 0 (· + 1)) place = .ok (word, broken, next)) :
    (inBlock place tokens indents keyAllowed none).lexPlain =
      .ok (inBlock next (tokens ++ [.scalar .plain (String.ofList word)]) indents broken
        (if keyAllowed then some ⟨indents.head? == some place.column, tokens.length, place⟩
          else none)) := by
  have hsave : (inBlock place tokens indents keyAllowed none).saveCandidate =
      .ok (inBlock place tokens indents keyAllowed
        (if keyAllowed then some ⟨indents.head? == some place.column, tokens.length, place⟩
          else none)) := by
    cases keyAllowed <;> rfl
  rw [lexPlain, lexNode, hsave]
  show (readPlain false (indents.head?.elim 0 (· + 1)) place).map _ >>= _ = _
  rw [hread]
  simp [inBlock, emit, Except.map, bind, Except.bind, pure, Except.pure]

/-- A colon in front of a space is that of a value. -/
theorem lexToken_colon (hrest : l.place.rest = ':' :: ' ' :: more) (hcolumn : l.place.column ≠ 0) :
    l.lexToken ':' = l.lexValue := by
  have hseparator : l.place.separatorAt 1 = true := by
    simp [Cursor.separatorAt, hrest, isSeparator, isSpace]
  have hmarker : ∀ sign, l.place.atMarker sign = false := by
    intro sign
    simp [Cursor.atMarker, hcolumn]
  unfold lexToken
  simp only [hmarker, hseparator]
  simp

/-- A word at the start of a line may be a key. -/
theorem lexAll_name (hname : IsWord name) (hrest : place.rest = name ++ ':' :: ' ' :: more)
    (hindents : indents.head?.all (· ≤ place.column) = true) :
    lexAll (fuel + 1) (inBlock place tokens indents true none) =
      lexAll fuel (inBlock (place.skip name.length)
        (tokens ++ [.scalar .plain (String.ofList name)]) indents false
        (some ⟨indents.head? == some place.column, tokens.length, place⟩)) := by
  obtain ⟨c, cs, rfl⟩ := List.exists_cons_of_ne_nil hname.ne_nil
  have hc : isWordChar c = true := hname.isWordChar c List.mem_cons_self
  refine lexAll_of_lexToken (skipToToken_of_starts (by simp [hrest, hc])) (by simp) hindents
    hrest ?_
  rw [lexToken_of_isWordChar hc hrest, lexPlain_inBlock (readPlain_before_colon hname hrest)]
  rfl

/-- The colon after a key puts the marks in front of it. -/
theorem lexAll_colon {scalar : Token} (hrest : place.rest = ':' :: ' ' :: more)
    (hline : place.line = start.line) (hcolumn : start.column = 0) (hpast : place.column ≠ 0)
    (hindex : place.index ≤ start.index + 1024) (hindents : indents = [] ∨ indents = [0]) :
    lexAll (fuel + 1) (inBlock place (tokens ++ [scalar]) indents false
        (some ⟨required, tokens.length, start⟩)) =
      lexAll fuel (inBlock (place.skip 1) (tokens ++ mappingMark indents ++ [.key, scalar, .value])
        [0] false none) := by
  -- The colon is on the line of the key and near enough, and so the key is still a candidate.
  have hfresh : isStale ⟨required, tokens.length, start⟩ place = false := by
    simp only [isStale, hline, Nat.lt_irrefl, decide_false, Bool.false_or, decide_eq_false_iff_not]
    exact Nat.not_lt.mpr hindex
  refine lexAll_of_lexToken (skipToToken_of_starts (by simp [hrest])) (by simpa using hfresh) ?_
    hrest ?_
  · rcases hindents with rfl | rfl <;> simp
  · rw [lexToken_colon hrest hpast]
    rcases hindents with rfl | rfl <;>
      simp [lexValue, openBlock, emit, inBlock, mappingMark, inFlow, hcolumn,
        insertIdx_length_append] <;> rfl

/-- A word at the end of a line is a value, after which a key may start. -/
theorem lexAll_value (hvalue : IsWord value) (hrest : place.rest = ' ' :: value ++ '\n' :: more)
    (hnext : more.head?.all isWordChar = true) :
    lexAll (fuel + 1) (inBlock place tokens [0] false none) =
      lexAll fuel (inBlock
        ⟨more, place.line + 1, 0, (place.skip 1).index + Cursor.byteCount value + 1⟩
        (tokens ++ [.scalar .plain (String.ofList value)]) [0] true none) := by
  obtain ⟨c, cs, rfl⟩ := List.exists_cons_of_ne_nil hvalue.ne_nil
  have hc : isWordChar c = true := hvalue.isWordChar c List.mem_cons_self
  have hskipped : (place.skip 1).rest = c :: cs ++ '\n' :: more := by
    simp [Cursor.skip, hrest]
  refine lexAll_of_lexToken (skipToToken_space hrest hc) (by simp) (by simp) hskipped ?_
  rw [lexToken_of_isWordChar hc hskipped,
    lexPlain_inBlock (readPlain_at_line_end hvalue hskipped (by simp) hnext)]
  rfl

end Block

end Lexer

/-! ## Lines of a mapping -/

/-- The line on which a field is written. -/
def fieldLine (field : String × String) : List Char :=
  field.1.toList ++ ':' :: ' ' :: field.2.toList ++ ['\n']

/-- The tokens of a field. -/
def fieldTokens (field : String × String) : List Token :=
  [.key, .scalar .plain field.1, .value, .scalar .plain field.2]

/-- Both the name and the value of a field are words, and the name can be told for a key. -/
structure IsPlainField (field : String × String) : Prop where
  name : IsWord field.1.toList
  value : IsWord field.2.toList
  bytes_le : Cursor.byteCount field.1.toList ≤ 1024

namespace Lexer

section Lines

variable {field : String × String} {fields : List (String × String)} {more : List Char}
  {tokens : List Token} {indents : List Nat} {place : Cursor} {fuel : Nat}

/-- A line is read as the tokens of its field, and the next one starts behind it. -/
theorem lexAll_fieldLine (fuel : Nat) (tokens : List Token) (h : IsPlainField field)
    (hrest : place.rest = fieldLine field ++ more) (hcolumn : place.column = 0)
    (hindents : indents = [] ∨ indents = [0]) (hnext : more.head?.all isWordChar = true) :
    ∃ next : Cursor, next.rest = more ∧ next.column = 0 ∧
      lexAll (fuel + 3) (inBlock place tokens indents true none) =
        lexAll fuel
          (inBlock next (tokens ++ mappingMark indents ++ fieldTokens field) [0] true none) := by
  have hline : place.rest = field.1.toList ++ ':' :: ' ' :: (field.2.toList ++ '\n' :: more) := by
    simp [hrest, fieldLine]
  have hcolon := Cursor.skip_append hline
  have hpos := List.length_pos_iff.mpr h.name.ne_nil
  have hbytes := h.bytes_le
  have hvalue : ((place.skip field.1.toList.length).skip 1).rest =
      ' ' :: field.2.toList ++ '\n' :: more := by
    rw [hcolon]
    rfl
  -- The place after the name, after the colon and after the value, one token each.
  refine ⟨⟨more, ((place.skip field.1.toList.length).skip 1).line + 1, 0,
    (((place.skip field.1.toList.length).skip 1).skip 1).index +
      Cursor.byteCount field.2.toList + 1⟩, rfl, rfl, ?_⟩
  rw [lexAll_name h.name hline (by rcases hindents with rfl | rfl <;> simp),
    lexAll_colon (by rw [hcolon]) (by rw [hcolon]) hcolumn ?past ?index hindents,
    lexAll_value h.value hvalue hnext]
  case past =>
    rw [hcolon]
    exact Nat.ne_of_gt (Nat.add_pos_right _ hpos)
  case index =>
    rw [hcolon]
    exact Nat.add_le_add_left hbytes _
  simp [fieldTokens]

/-- What follows a line is another line, or nothing. -/
theorem head?_flatMap_fieldLine (h : ∀ field ∈ fields, IsPlainField field) :
    (fields.flatMap fieldLine).head?.all isWordChar = true := by
  cases fields with
  | nil => rfl
  | cons field fields =>
    have hfield := h field List.mem_cons_self
    obtain ⟨c, cs, hcs⟩ := List.exists_cons_of_ne_nil hfield.name.ne_nil
    have hc := hfield.name.isWordChar c (by rw [hcs]; exact List.mem_cons_self)
    simpa [fieldLine, hcs] using hc

/-- The end of the text ends the mapping. -/
theorem lexAll_end (hrest : place.rest = []) :
    lexAll (fuel + 1) (inBlock place tokens [0] true none) =
      .ok (tokens ++ [Token.blockEnd]).toArray := by
  rw [lexAll_inBlock (skipToToken_of_starts (by simp [hrest])) (by simp) (by simp), hrest]
  simp [closeAll, closeBlocks, dropCandidate, inBlock, inFlow, Except.map]

/-- Lines that are inside a mapping already are read to the end of the text. -/
theorem lexAll_fields (h : ∀ field ∈ fields, IsPlainField field)
    (hrest : place.rest = fields.flatMap fieldLine) (hcolumn : place.column = 0)
    (hfuel : 3 * fields.length + 1 ≤ fuel) :
    lexAll fuel (inBlock place tokens [0] true none) =
      .ok (tokens ++ fields.flatMap fieldTokens ++ [Token.blockEnd]).toArray := by
  induction fields generalizing place tokens fuel with
  | nil =>
    obtain ⟨fuel, rfl⟩ : ∃ fuel', fuel = fuel' + 1 := ⟨fuel - 1, by omega⟩
    simpa using lexAll_end hrest
  | cons field fields ih =>
    rw [List.forall_mem_cons] at h
    rw [List.length_cons] at hfuel
    obtain ⟨fuel, rfl⟩ : ∃ fuel', fuel = fuel' + 3 := ⟨fuel - 3, by omega⟩
    obtain ⟨next, hnext, hstart, hlex⟩ := lexAll_fieldLine fuel tokens h.1 hrest hcolumn
      (Or.inr rfl) (head?_flatMap_fieldLine h.2)
    rw [hlex, ih h.2 hnext hstart (by omega)]
    simp [mappingMark]

/-- A line has more characters than tokens are read from it. -/
theorem three_mul_length_le (fields : List (String × String)) :
    3 * fields.length ≤ (fields.flatMap fieldLine).length := by
  induction fields with
  | nil => simp
  | cons field fields ih =>
    simp only [List.flatMap_cons, List.length_append, List.length_cons, fieldLine, List.length_nil]
    omega

theorem isAllowed_of_mem_fieldLine (h : IsPlainField field) :
    ∀ c ∈ fieldLine field, isAllowed c = true := by
  have hsigns : isAllowed ':' = true ∧ isAllowed ' ' = true ∧ isAllowed '\n' = true := by
    decide
  intro c hc
  simp only [fieldLine, List.mem_append, List.mem_cons, List.not_mem_nil, or_false] at hc
  rcases hc with (hc | rfl | rfl | hc) | rfl
  · exact isAllowed_of_isWordChar (h.name.isWordChar c hc)
  · exact hsigns.1
  · exact hsigns.2.1
  · exact isAllowed_of_isWordChar (h.value.isWordChar c hc)
  · exact hsigns.2.2

end Lines

end Lexer

/-- The lines of some fields are the tokens of the fields in a mapping. -/
theorem tokenize_fieldLines {field : String × String} {fields : List (String × String)}
    (h : ∀ f ∈ field :: fields, IsPlainField f) :
    tokenize (String.ofList ((field :: fields).flatMap fieldLine)) =
      .ok (.blockMapping :: ((field :: fields).flatMap fieldTokens ++ [.blockEnd])) := by
  have hallowed : ((field :: fields).flatMap fieldLine).find? (!isAllowed ·) = none := by
    rw [List.find?_eq_none]
    intro c hc
    obtain ⟨f, hf, hc⟩ := List.mem_flatMap.mp hc
    simp [Lexer.isAllowed_of_mem_fieldLine (h f hf) c hc]
  have hlength := Lexer.three_mul_length_le (field :: fields)
  rw [List.length_cons] at hlength
  obtain ⟨fuel, hfuel⟩ : ∃ fuel, ((field :: fields).flatMap fieldLine).length + 1 = fuel + 3 :=
    ⟨_, (Nat.sub_add_cancel (by omega)).symm⟩
  rw [List.forall_mem_cons] at h
  let place : Cursor := { rest := (field :: fields).flatMap fieldLine }
  have hlexed : Lexer.lexAll (((field :: fields).flatMap fieldLine).length + 1)
      (Lexer.inBlock place [] [] true none) =
      .ok (([] ++ Lexer.mappingMark [] ++ fieldTokens field) ++ fields.flatMap fieldTokens ++
        [Token.blockEnd]).toArray := by
    have hrest : place.rest = fieldLine field ++ fields.flatMap fieldLine := rfl
    obtain ⟨next, hnext, hstart, hlex⟩ := Lexer.lexAll_fieldLine fuel [] h.1 hrest rfl
      (Or.inl rfl) (Lexer.head?_flatMap_fieldLine h.2)
    rw [hfuel]
    exact hlex.trans (Lexer.lexAll_fields h.2 hnext hstart (by omega))
  rw [tokenize, String.toList_ofList, hallowed, String.length_ofList]
  show (Lexer.lexAll _ (Lexer.inBlock _ [] [] true none)).map _ = _
  rw [hlexed]
  simp [Except.map, Lexer.mappingMark]

/-! ## Nodes -/

/-- The key and the value of a field. -/
def fieldNodes (field : String × String) : Node × Node :=
  (.scalar none .plain field.1, .scalar none .plain field.2)

namespace Build

variable {b : Builder} {fuel : Nat} {style : Style} {text : String} {token other : Token}
  {tokens rest : List Token} {build : Build Node}
  {fields : List (String × String)}

/-- A reader goes on where the one before it has ended. -/
theorem run_bind {α β : Type} {x : Build α} {f : α → Build β} {a : α} {b' : Builder}
    (h : x.run b = .ok (a, b')) : (x >>= f).run b = (f a).run b' := by
  rw [StateT.run_bind, h]
  rfl

/-- The token that comes next is passed if it is the given one. -/
theorem run_accept (h : b.tokens = token :: rest) :
    (accept token).run b = .ok (true, { b with tokens := rest }) := by
  simp [accept, peek, advance, h]
  rfl

theorem run_accept_of_ne (h : b.tokens = token :: rest) (hne : token ≠ other) :
    (accept other).run b = .ok (false, b) := by
  simp [accept, peek, h, hne]
  rfl

theorem run_unlessNext (h : b.tokens = token :: rest) (hnot : token ∉ tokens) :
    (unlessNext tokens build).run b = build.run b := by
  simp [unlessNext, peek, h, hnot]

theorem run_node_scalar (h : b.tokens = .scalar style text :: rest) :
    (node (fuel + 2) true true).run b =
      .ok (.scalar none style text, { b with tokens := rest, size := b.size + 1 }) := by
  simp [node, content, properties, anchor?, tag?, peek, advance, grow, h]
  rfl

/-- A mapping is read to its end. -/
theorem run_blockPairs (h : b.tokens = fields.flatMap fieldTokens ++ .blockEnd :: rest)
    (hfuel : fields.length + 3 ≤ fuel) :
    (blockPairs fuel).run b =
      .ok (fields.map fieldNodes,
        { b with tokens := rest, size := b.size + 2 * fields.length }) := by
  induction fields generalizing b fuel with
  | nil =>
    obtain ⟨fuel, rfl⟩ : ∃ fuel', fuel = fuel' + 1 := ⟨fuel - 1, by omega⟩
    rw [blockPairs]
    exact run_bind (run_accept h)
  | cons field fields ih =>
    rw [List.length_cons] at hfuel
    obtain ⟨fuel, rfl⟩ : ∃ fuel', fuel = fuel' + 3 := ⟨fuel - 3, by omega⟩
    -- A key and a value take a level each, below that of the pair.
    have hkey : b.tokens = .key :: .scalar .plain field.1 :: .value :: .scalar .plain field.2 ::
      (fields.flatMap fieldTokens ++ .blockEnd :: rest) := h
    rw [blockPairs]
    refine (run_bind (run_accept_of_ne hkey (by decide))).trans ?_
    refine (run_bind (run_accept hkey)).trans ?_
    refine (run_bind ((run_unlessNext rfl (by simp)).trans (run_node_scalar rfl))).trans ?_
    refine (run_bind (run_accept rfl)).trans ?_
    refine (run_bind ((run_unlessNext rfl (by simp)).trans (run_node_scalar rfl))).trans ?_
    refine (run_bind (ih rfl (by omega))).trans ?_
    have hsize : b.size + 1 + 1 + 2 * fields.length = b.size + 2 * (fields.length + 1) := by
      omega
    rw [StateT.run_pure, List.length_cons, ← hsize]
    rfl

theorem run_peek (h : b.tokens = token :: rest) : peek.run b = .ok (some token, b) := by
  simp [peek, h]
  rfl

theorem run_node_blockMapping
    (h : b.tokens = .blockMapping :: (fields.flatMap fieldTokens ++ .blockEnd :: rest))
    (hfuel : fields.length + 5 ≤ fuel) :
    (node fuel true false).run b = .ok (.mapping none (fields.map fieldNodes),
      { b with tokens := rest, size := b.size + 2 + 2 * fields.length }) := by
  obtain ⟨fuel, rfl⟩ : ∃ fuel', fuel = fuel' + 2 := ⟨fuel - 2, by omega⟩
  have hfuel' : fields.length + 3 ≤ fuel := by
    omega
  have hpairs := run_blockPairs (b := {
    b with
    tokens := fields.flatMap fieldTokens ++ .blockEnd :: rest
    size := b.size + 2 }) rfl hfuel'
  simp [node, content, properties, anchor?, tag?, peek, advance, grow, h, hpairs]

/-- A document of one mapping and no directives is the mapping. -/
theorem run_root (h : b.tokens = .blockMapping :: (fields.flatMap fieldTokens ++ [.blockEnd]))
    (hfuel : fields.length + 5 ≤ fuel) :
    (root fuel).run b = .ok (some (.mapping none (fields.map fieldNodes)),
      { b with tokens := [], handles := [], size := b.size + 2 + 2 * fields.length }) := by
  have hdirectives : directives.run b = .ok ([], { b with handles := [] }) := by
    simp [directives, h, areDirectives]
    rfl
  have hnode := run_node_blockMapping (b := { b with handles := [] }) h hfuel
  rw [root]
  refine (run_bind (run_peek h)).trans ?_
  refine (run_bind hdirectives).trans ?_
  refine (run_bind (run_accept_of_ne (b := { b with handles := [] }) h (by simp))).trans ?_
  exact (run_bind hnode).trans rfl

end Build

/-- A field has more tokens than one. -/
theorem length_le_length_flatMap_fieldTokens (fields : List (String × String)) :
    fields.length ≤ (fields.flatMap fieldTokens).length := by
  induction fields with
  | nil => simp
  | cons field fields ih =>
    simp only [List.flatMap_cons, List.length_append, List.length_cons, fieldTokens]
    omega

/-- The tokens of some fields in a mapping are the document of their nodes. -/
theorem Document.ofTokens_fieldTokens (fields : List (String × String)) :
    Document.ofTokens (.blockMapping :: (fields.flatMap fieldTokens ++ [.blockEnd])) =
      .ok ⟨some (.mapping none (fields.map fieldNodes)), [], 2 + 2 * fields.length⟩ := by
  have hlength := length_le_length_flatMap_fieldTokens fields
  rw [ofTokens, Build.run_root rfl (by simp only [List.length_cons, List.length_append]; omega)]
  simp [bind, Except.bind, pure, Except.pure]
  omega

/-- The lines of some fields write the mapping of their words. -/
theorem Document.read_fieldLines {field : String × String} {fields : List (String × String)}
    (h : ∀ f ∈ field :: fields, IsPlainField f) :
    Document.read (String.ofList ((field :: fields).flatMap fieldLine)) =
      .ok ⟨some (.mapping none ((field :: fields).map fieldNodes)), [],
        2 + 2 * (field :: fields).length⟩ := by
  rw [read, tokenize_fieldLines h]
  exact ofTokens_fieldTokens (field :: fields)

end KeyChord.Yaml
