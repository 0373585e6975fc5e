import KeyChord.When.Token
import Mathlib.Data.List.TakeWhile
import Mathlib.Tactic.SplitIfs

/-!
# How tokens are written

The module introduces:

* `TokenKind.Written`: the characters that a token may be written with.
* `Spells`: the characters spell the tokens. Blanks may stand anywhere between tokens, and where one
  token would take in the first character of the next, they have to.
* `SpellsBefore`: located characters spell the tokens up to a place, each at its offset.

The tokens of a text are those that it spells (`spells_iff`). So a text spells at most one
list of tokens, and no character of it is left over.
-/

namespace KeyChord.When

/-! ## Spelling -/

/-- The characters are one way to write the token. -/
inductive TokenKind.Written : TokenKind → List Char → Prop where
  /-- A word is written as it is. -/
  | word {c : Char} {cs : List Char} (hstart : startsWord c = true)
      (hcontinue : ∀ d ∈ cs, continuesWord d = true) :
      Written (.word (String.ofList (c :: cs))) (c :: cs)
  /-- A string stands between equal quotes, and the quote does not occur in it. -/
  | string {quote : Char} {cs : List Char} (hquote : quote = '\'' ∨ quote = '"')
      (hfree : ∀ d ∈ cs, d ≠ quote) :
      Written (.string (String.ofList cs)) (quote :: (cs ++ [quote]))
  /-- A number is written with digits and points, behind a minus or without one. -/
  | number {c : Char} {cs : List Char} {n : Number} (hstart : startsNumber c = true)
      (hcontinue : ∀ d ∈ cs, continuesNumber d = true)
      (hread : Number.read? (c :: cs) = some n) : Written (.number n) (c :: cs)
  | not : Written .not ['!']
  | and : Written .and ['&', '&']
  | or : Written .or ['|', '|']
  | equals : Written .equals ['=', '=']
  | differs : Written .differs ['!', '=']
  | openParen : Written .openParen ['(']
  | closeParen : Written .closeParen [')']

/-- Whether a token would take in a character that follows it. -/
def TokenKind.takes : TokenKind → Char → Bool
  | word _, c => continuesWord c
  | number _, c => continuesNumber c
  | not, c => c == '='
  | _, _ => false

/-- The characters spell the tokens. -/
inductive Spells : List Char → List TokenKind → Prop where
  /-- Nothing spells no tokens. -/
  | nil : Spells [] []
  /-- Blanks do not count. -/
  | blank {c : Char} {cs : List Char} {kinds : List TokenKind} (hblank : Text.isBlank c = true)
      (h : Spells cs kinds) : Spells (c :: cs) kinds
  /-- A token, which ends before the characters that follow. -/
  | token {kind : TokenKind} {lexeme cs : List Char} {kinds : List TokenKind}
      (hwritten : kind.Written lexeme) (hends : ∀ c ∈ cs.head?, kind.takes c = false)
      (h : Spells cs kinds) : Spells (lexeme ++ cs) (kind :: kinds)

/-- No token takes in a space or a closing parenthesis. -/
theorem takes_eq_false (kind : TokenKind) {c : Char} (h : c = ' ' ∨ c = ')') :
    kind.takes c = false := by
  rcases h with rfl | rfl <;> cases kind <;> rfl

/-- Tokens that can be written are spelled by some characters: spaces keep them apart. -/
theorem exists_spells {kinds : List TokenKind}
    (h : ∀ kind ∈ kinds, ∃ lexeme, kind.Written lexeme) : ∃ cs, Spells cs kinds := by
  induction kinds with
  | nil => exact ⟨[], .nil⟩
  | cons kind kinds ih =>
    obtain ⟨⟨lexeme, hwritten⟩, hkinds⟩ := List.forall_mem_cons.mp h
    obtain ⟨cs, hspells⟩ := ih hkinds
    have hspace : Spells (' ' :: cs) kinds := .blank (by decide) hspells
    refine ⟨lexeme ++ ' ' :: cs, .token hwritten ?_ hspace⟩
    rintro c ⟨⟩
    exact takes_eq_false kind (Or.inl rfl)

/-- Whatever is spelled is written. -/
theorem Spells.exists_written {cs : List Char} {kinds : List TokenKind} (h : Spells cs kinds) :
    ∀ kind ∈ kinds, ∃ lexeme, kind.Written lexeme := by
  intro kind hkind
  induction h with
  | nil => cases hkind
  | blank _ _ ih => exact ih hkind
  | token hwritten _ _ ih =>
    rcases List.mem_cons.mp hkind with rfl | hrest
    · exact ⟨_, hwritten⟩
    · exact ih hrest

/-- What no token takes in can follow tokens. -/
theorem Spells.append {cs cs' : List Char} {kinds kinds' : List TokenKind}
    (h : Spells cs kinds) (h' : Spells cs' kinds')
    (hhead : ∀ kind : TokenKind, ∀ c ∈ cs'.head?, kind.takes c = false) :
    Spells (cs ++ cs') (kinds ++ kinds') := by
  induction h with
  | nil => exact h'
  | blank hblank _ ih => exact .blank hblank ih
  | @token kind lexeme cs kinds hwritten hends _ ih =>
    rw [List.append_assoc]
    refine .token hwritten (fun c hc => ?_) ih
    cases cs with
    | nil => exact hhead kind c hc
    | cons d cs => exact hends c hc

/-! ## Classes of characters -/

/-- The blanks, one by one. -/
def blanks : List Char :=
  Text.blankTable.ranges.flatMap fun range =>
    (List.range' range.1 (range.2 + 1 - range.1)).map Char.ofNat

theorem mem_blanks {c : Char} (h : Text.isBlank c = true) : c ∈ blanks := by
  rw [Text.isBlank, Text.CodePoints.contains, List.any_eq_true] at h
  obtain ⟨range, hrange, hbounds⟩ := h
  simp only [Bool.and_eq_true, decide_eq_true_eq] at hbounds
  refine List.mem_flatMap.mpr ⟨range, hrange, List.mem_map.mpr ⟨c.toNat, ?_, Char.ofNat_toNat c⟩⟩
  rw [List.mem_range'_1]
  omega

/-- The characters that are tokens by themselves or begin one, apart from words and numbers. -/
def marks : List Char := ['(', ')', '!', '&', '|', '=', '\'', '"']

/-- A mark starts no word and no number. -/
theorem not_starts_of_mem_marks {c : Char} (h : c ∈ marks) :
    startsWord c = false ∧ startsNumber c = false := by
  have hall : marks.all (fun c => !startsWord c && !startsNumber c) = true := by decide
  simpa using List.all_eq_true.mp hall c h

/-- What starts a number starts no word. -/
theorem not_startsWord_of_startsNumber {c : Char} (h : startsNumber c = true) :
    startsWord c = false := by
  rw [startsNumber, Bool.or_eq_true, Char.isDigit_iff_toNat, beq_iff_eq] at h
  rcases h with ⟨hlower, hupper⟩ | rfl
  · have hall : (List.range' 48 10).all (fun n => !startsWord (Char.ofNat n)) = true := by
      decide
    have hrange : c.toNat ∈ List.range' 48 10 :=
      List.mem_range'_1.mpr ⟨hlower, Nat.lt_succ_of_le hupper⟩
    have hword := List.all_eq_true.mp hall c.toNat hrange
    rwa [Char.ofNat_toNat, Bool.not_eq_true'] at hword
  · decide

/-- A blank starts no word and no number, and is no mark. -/
theorem not_starts_of_isBlank {c : Char} (h : Text.isBlank c = true) :
    startsWord c = false ∧ startsNumber c = false ∧ c ∉ marks := by
  have hall :
      blanks.all (fun c => !startsWord c && !startsNumber c && !marks.contains c) = true := by
    decide +kernel
  simpa [and_assoc] using List.all_eq_true.mp hall c (mem_blanks h)

/-! ## One token -/

/-- What satisfies the condition is taken as far as it goes. -/
theorem spanWhile_append {p : Char → Bool} {front rest : List Located}
    (hfront : ∀ d ∈ front.map Prod.snd, p d = true)
    (hrest : ∀ d ∈ (rest.map Prod.snd).head?, p d = false) :
    spanWhile p (front ++ rest) =
      (front.map Prod.snd, ⟨rest, (List.sublist_append_right front rest).length_le⟩) := by
  have hfront' : ∀ d ∈ front, p d.2 = true := fun d hd => hfront d.2 (List.mem_map_of_mem hd)
  have htake : rest.takeWhile (p ·.2) = [] ∧ rest.dropWhile (p ·.2) = rest := by
    cases rest with
    | nil => exact ⟨rfl, rfl⟩
    | cons d rest =>
      have hd : p d.2 = false := hrest d.2 rfl
      rw [List.takeWhile_cons, List.dropWhile_cons, hd]
      exact ⟨rfl, rfl⟩
  refine Prod.ext ?_ (Subtype.ext ?_)
  · simp only [spanWhile, List.takeWhile_append_of_pos hfront', htake.1, List.append_nil]
  · simp only [spanWhile, List.dropWhile_append_of_pos hfront', htake.2]

/-- What is taken satisfies the condition, and what follows does not. -/
theorem exists_of_spanWhile (p : Char → Bool) (cs : List Located) :
    ∃ front rest, spanWhile p cs = (front.map Prod.snd, rest) ∧ cs = front ++ rest.val ∧
      (∀ d ∈ front.map Prod.snd, p d = true) ∧
      ∀ d ∈ (rest.val.map Prod.snd).head?, p d = false := by
  refine ⟨cs.takeWhile (p ·.2), _, rfl, List.takeWhile_append_dropWhile.symm, ?_, ?_⟩
  · intro d hd
    obtain ⟨located, hmem, rfl⟩ := List.mem_map.mp hd
    have hp := List.mem_takeWhile_imp hmem
    exact hp
  · intro d hd
    rw [List.head?_map] at hd
    obtain ⟨located, hhead, rfl⟩ := Option.map_eq_some_iff.mp hd
    have hstop := List.head?_dropWhile_not (p ·.2) cs
    rw [hhead] at hstop
    exact hstop

/-- The next character is skipped if it is the given one. -/
theorem skip?_cons {d : Located} (c : Char) (h : d.2 = c) (cs : List Located) :
    skip? c (d :: cs) = some ⟨cs, Nat.le_succ _⟩ :=
  if_pos h

theorem skip?_of_ne {c : Char} {cs : List Located} (h : ∀ d ∈ (cs.map Prod.snd).head?, d ≠ c) :
    skip? c cs = none := by
  cases cs with
  | nil => rfl
  | cons d cs => exact if_neg (h d.2 rfl)

/-- The next character tells whether it is skipped. -/
theorem skip?_cases (c : Char) (cs : List Located) :
    (∃ d rest, cs = d :: rest ∧ d.2 = c) ∨ ∀ d ∈ (cs.map Prod.snd).head?, d ≠ c := by
  cases cs with
  | nil => exact Or.inr fun d hd => (by cases hd)
  | cons d cs =>
    by_cases hd : d.2 = c
    · exact Or.inl ⟨d, cs, rfl, hd⟩
    · refine Or.inr ?_
      rintro _ ⟨⟩
      exact hd

/-- A character that starts a word or a number is no mark. -/
theorem ne_of_mem_marks {c : Char} (h : startsWord c = true ∨ startsNumber c = true) :
    ∀ mark ∈ marks, c ≠ mark := by
  rintro mark hmark rfl
  obtain ⟨hword, hnumber⟩ := not_starts_of_mem_marks hmark
  rw [hword, hnumber] at h
  simp at h

/-- A token that is written and ends is read. -/
theorem readToken_of_written {offset : Nat} {c : Char} {cs front rest : List Located}
    {kind : TokenKind} (hcs : cs = front ++ rest)
    (hwritten : kind.Written (c :: front.map Prod.snd))
    (hends : ∀ d ∈ (rest.map Prod.snd).head?, kind.takes d = false) :
    readToken offset c cs =
      .ok (kind, ⟨rest, hcs ▸ (List.sublist_append_right front rest).length_le⟩) := by
  generalize hlexeme : c :: front.map Prod.snd = lexeme at hwritten
  -- The first character selects the branch: marks, words and numbers exclude each other.
  cases hwritten with
  | word hstart hcontinue =>
    cases hlexeme
    subst hcs
    have hne := ne_of_mem_marks (Or.inl hstart)
    have hnumber : startsNumber c = false := by
      by_contra h
      rw [not_startsWord_of_startsNumber (by simpa using h)] at hstart
      cases hstart
    simp only [marks, List.forall_mem_cons] at hne
    simp only [readToken, hne, hnumber, hstart, if_false, if_true, or_self, Bool.false_eq_true,
      spanWhile_append hcontinue hends]
  | @string quote text hquote hfree =>
    obtain ⟨rfl, hfront⟩ := List.cons.inj hlexeme
    obtain ⟨text, closing, rfl, rfl, hclosing⟩ := List.map_eq_append_iff.mp hfront
    obtain ⟨d, rfl, hd⟩ := List.map_eq_singleton_iff.mp hclosing
    rw [List.append_assoc, List.singleton_append] at hcs
    have hspan := @spanWhile_append (· != c) text (d :: rest) (by simpa using hfree)
      (by simpa using hd)
    subst hcs
    have hne : c ≠ '(' ∧ c ≠ ')' ∧ c ≠ '!' ∧ c ≠ '&' ∧ c ≠ '|' ∧ c ≠ '=' := by
      rcases hquote with rfl | rfl <;> decide
    simp only [readToken, hne, hquote, if_false, if_true, hspan]
  | number hstart hcontinue hread =>
    cases hlexeme
    subst hcs
    have hne := ne_of_mem_marks (Or.inr hstart)
    simp only [marks, List.forall_mem_cons] at hne
    simp only [readToken, hne, hstart, if_false, if_true, or_self,
      spanWhile_append hcontinue hends, hread]
  | not =>
    obtain ⟨rfl, hfront⟩ := List.cons.inj hlexeme
    obtain rfl := List.map_eq_nil_iff.mp hfront
    obtain rfl : cs = rest := hcs
    have hskip : skip? '=' cs = none := skip?_of_ne fun d hd => by
      simpa [TokenKind.takes] using hends d hd
    simp [readToken, hskip]
  | and | or | equals | differs =>
    -- Here only the second character is left, which is skipped.
    obtain ⟨rfl, hfront⟩ := List.cons.inj hlexeme
    obtain ⟨d, rfl, hd⟩ := List.map_eq_singleton_iff.mp hfront
    subst hcs
    simp [readToken, skip?_cons _ hd rest]
  | openParen | closeParen =>
    obtain ⟨rfl, hfront⟩ := List.cons.inj hlexeme
    obtain rfl := List.map_eq_nil_iff.mp hfront
    obtain rfl : cs = rest := hcs
    simp [readToken]

/-- An operator is written and ends if its second character has been skipped. -/
theorem exists_written_of_skip? {kind : TokenKind} {c second : Char} {cs : List Located}
    {rest : Remainder cs} (hwritten : kind.Written [c, second])
    (htakes : ∀ d, kind.takes d = false) (h : skip? second cs = some rest) :
    ∃ front, cs = front ++ rest.val ∧ kind.Written (c :: front.map Prod.snd) ∧
      ∀ d ∈ (rest.val.map Prod.snd).head?, kind.takes d = false := by
  rcases skip?_cases second cs with ⟨d, rest, rfl, hd⟩ | hne
  · rw [skip?_cons second hd] at h
    cases h
    refine ⟨[d], rfl, ?_, fun d _ => htakes d⟩
    rw [List.map_singleton, hd]
    exact hwritten
  · rw [skip?_of_ne hne] at h
    cases h

/-- A token that is read is written and ends. -/
theorem exists_written_of_readToken {offset : Nat} {c : Char} {cs : List Located}
    {kind : TokenKind} {rest : Remainder cs} (h : readToken offset c cs = .ok (kind, rest)) :
    ∃ front, cs = front ++ rest.val ∧ kind.Written (c :: front.map Prod.snd) ∧
      ∀ d ∈ (rest.val.map Prod.snd).head?, kind.takes d = false := by
  rw [readToken] at h
  by_cases hopen : c = '('
  · rw [if_pos hopen] at h
    cases h
    exact ⟨[], rfl, hopen ▸ .openParen, fun d _ => rfl⟩
  by_cases hclose : c = ')'
  · rw [if_neg hopen, if_pos hclose] at h
    cases h
    exact ⟨[], rfl, hclose ▸ .closeParen, fun d _ => rfl⟩
  rw [if_neg hopen, if_neg hclose] at h
  by_cases hbang : c = '!'
  · rw [if_pos hbang] at h
    subst hbang
    rcases skip?_cases '=' cs with ⟨d, rest, rfl, hd⟩ | hne
    · rw [skip?_cons '=' hd] at h
      cases h
      exact exists_written_of_skip? .differs (fun _ => rfl) (skip?_cons '=' hd rest)
    · rw [skip?_of_ne hne] at h
      cases h
      exact ⟨[], rfl, .not, fun d hd => by simpa [TokenKind.takes] using hne d hd⟩
  rw [if_neg hbang] at h
  by_cases hand : c = '&'
  · rw [if_pos hand] at h
    split at h
    · next rest hskip =>
      cases h
      exact exists_written_of_skip? (hand ▸ .and) (fun _ => rfl) hskip
    · cases h
  rw [if_neg hand] at h
  by_cases hor : c = '|'
  · rw [if_pos hor] at h
    split at h
    · next rest hskip =>
      cases h
      exact exists_written_of_skip? (hor ▸ .or) (fun _ => rfl) hskip
    · cases h
  rw [if_neg hor] at h
  by_cases hequals : c = '='
  · rw [if_pos hequals] at h
    split at h
    · next rest hskip =>
      cases h
      exact exists_written_of_skip? (hequals ▸ .equals) (fun _ => rfl) hskip
    · cases h
  rw [if_neg hequals] at h
  by_cases hquote : c = '\'' ∨ c = '"'
  · rw [if_pos hquote] at h
    obtain ⟨front, ⟨rest, _⟩, hspan, hcs, hfree, hends⟩ := exists_of_spanWhile (· != c) cs
    rw [hspan] at h
    cases rest with
    | nil => cases h
    | cons d rest =>
      cases h
      have hd : d.2 = c := by simpa using hends d.2 rfl
      refine ⟨front ++ [d], by simpa using hcs, ?_, fun d _ => rfl⟩
      rw [List.map_append, List.map_singleton, hd]
      exact .string hquote (by simpa using hfree)
  rw [if_neg hquote] at h
  by_cases hnumber : startsNumber c = true
  · rw [if_pos hnumber] at h
    obtain ⟨front, rest, hspan, hcs, hcontinue, hends⟩ := exists_of_spanWhile continuesNumber cs
    rw [hspan] at h
    cases hread : Number.read? (c :: front.map Prod.snd) with
    | none =>
      simp only [hread] at h
      cases h
    | some n =>
      simp only [hread] at h
      cases h
      exact ⟨front, hcs, .number hnumber hcontinue hread, hends⟩
  rw [if_neg hnumber] at h
  by_cases hword : startsWord c = true
  · rw [if_pos hword] at h
    obtain ⟨front, rest, hspan, hcs, hcontinue, hends⟩ := exists_of_spanWhile continuesWord cs
    rw [hspan] at h
    cases h
    exact ⟨front, hcs, .word hword hcontinue, hends⟩
  · rw [if_neg hword] at h
    cases h

/-! ## All tokens -/

/-- A token begins with a character, which is no blank. -/
theorem TokenKind.Written.exists_eq_cons {kind : TokenKind} {lexeme : List Char}
    (h : kind.Written lexeme) : ∃ c cs, lexeme = c :: cs ∧ Text.isBlank c = false := by
  have hblank : ∀ c, startsWord c = true ∨ startsNumber c = true ∨ c ∈ marks →
      Text.isBlank c = false := by
    intro c hc
    by_contra h
    obtain ⟨hword, hnumber, hmark⟩ := not_starts_of_isBlank (by simpa using h)
    simp [hword, hnumber, hmark] at hc
  cases h with
  | word hstart => exact ⟨_, _, rfl, hblank _ (Or.inl hstart)⟩
  | number hstart => exact ⟨_, _, rfl, hblank _ (Or.inr (Or.inl hstart))⟩
  | string hquote => exact ⟨_, _, rfl, hblank _ (Or.inr (Or.inr (by simp [marks, hquote])))⟩
  | _ => exact ⟨_, _, rfl, hblank _ (Or.inr (Or.inr (by decide)))⟩

/-- The characters before the rest spell the tokens, each at the offset of its first character. The
rest is at hand when the last token is read, which ends there. -/
inductive SpellsBefore : List Located → List Token → List Located → Prop where
  /-- No characters spell no tokens. -/
  | nil {rest : List Located} : SpellsBefore rest [] rest
  /-- Blanks do not count. -/
  | blank {d : Located} {cs rest : List Located} {tokens : List Token}
      (hblank : Text.isBlank d.2 = true) (h : SpellsBefore cs tokens rest) :
      SpellsBefore (d :: cs) tokens rest
  /-- A token, which ends before the characters that follow. -/
  | token {kind : TokenKind} {d : Located} {lexeme cs rest : List Located} {tokens : List Token}
      (hwritten : kind.Written (d.2 :: lexeme.map Prod.snd))
      (hends : ∀ c ∈ (cs.map Prod.snd).head?, kind.takes c = false)
      (h : SpellsBefore cs tokens rest) :
      SpellsBefore (d :: (lexeme ++ cs)) (⟨kind, d.1⟩ :: tokens) rest

namespace SpellsBefore

variable {cs rest : List Located} {tokens before after : List Token} {token : Token}

/-- The characters are some that spell the tokens by themselves, and the rest. -/
theorem exists_front (h : SpellsBefore cs tokens rest) :
    ∃ front, cs = front ++ rest ∧ Spells (front.map Prod.snd) (tokens.map Token.kind) := by
  induction h with
  | nil => exact ⟨[], rfl, .nil⟩
  | @blank d _ _ _ hblank _ ih =>
    obtain ⟨front, rfl, hspells⟩ := ih
    exact ⟨d :: front, rfl, .blank hblank hspells⟩
  | @token kind d lexeme _ _ _ hwritten hends _ ih =>
    obtain ⟨front, rfl, hspells⟩ := ih
    refine ⟨d :: (lexeme ++ front), by simp, ?_⟩
    have hhead : ∀ c ∈ (front.map Prod.snd).head?, kind.takes c = false := by
      intro c hc
      refine hends c ?_
      cases front with
      | nil => cases hc
      | cons => exact hc
    simpa using Spells.token hwritten hhead hspells

/-- Each of the tokens stands at its offset, behind those before it. -/
theorem exists_of_append_cons (h : SpellsBefore cs (before ++ token :: after) rest) :
    ∃ d lexeme back, SpellsBefore cs before (d :: (lexeme ++ back)) ∧ d.1 = token.offset ∧
      token.kind.Written (d.2 :: lexeme.map Prod.snd) ∧ SpellsBefore back after rest := by
  generalize htokens : before ++ token :: after = tokens at h
  induction h generalizing before with
  | nil => simp at htokens
  | blank hblank _ ih =>
    obtain ⟨d, lexeme, back, hbefore, hfacts⟩ := ih htokens
    exact ⟨d, lexeme, back, .blank hblank hbefore, hfacts⟩
  | @token kind d lexeme back _ tokens hwritten hends h ih =>
    cases before with
    | nil =>
      obtain ⟨rfl, rfl⟩ := List.cons.inj htokens
      exact ⟨d, lexeme, back, .nil, rfl, hwritten, h⟩
    | cons first before =>
      obtain ⟨rfl, hrest⟩ := List.cons.inj htokens
      obtain ⟨d, lexeme, back, hbefore, hfacts⟩ := ih hrest
      exact ⟨d, lexeme, back, .token hwritten hends hbefore, hfacts⟩

end SpellsBefore

/-- All tokens of some characters are spelled by them. -/
theorem spellsBefore_of_tokensOf {cs : List Located} {tokens : List Token}
    (h : tokensOf cs = .ok tokens) : SpellsBefore cs tokens [] := by
  fun_induction tokensOf cs generalizing tokens with
  | case1 =>
    cases h
    exact .nil
  | case2 offset c cs hblank ih => exact .blank hblank (ih h)
  | case3 => cases h
  | case4 offset c cs hblank kind rest hlength hread ih =>
    obtain ⟨lexeme, hcs, hwritten, hends⟩ := exists_written_of_readToken hread
    cases hrest : tokensOf rest with
    | error e =>
      rw [hrest] at h
      cases h
    | ok tokens =>
      rw [hrest] at h
      cases h
      rw [hcs]
      exact .token hwritten hends (ih hrest)

/-- The kinds of the tokens of some characters are spelled by them. -/
theorem spells_of_tokensOf {cs : List Located} {tokens : List Token}
    (h : tokensOf cs = .ok tokens) : Spells (cs.map Prod.snd) (tokens.map Token.kind) := by
  obtain ⟨front, rfl, hspells⟩ := (spellsBefore_of_tokensOf h).exists_front
  rwa [List.append_nil]

/-- Characters that spell some tokens have them. -/
theorem exists_tokensOf_of_spells {chars : List Char} {kinds : List TokenKind}
    (h : Spells chars kinds) {cs : List Located} (hcs : cs.map Prod.snd = chars) :
    ∃ tokens, tokensOf cs = .ok tokens ∧ tokens.map Token.kind = kinds := by
  induction h generalizing cs with
  | nil =>
    obtain rfl := List.map_eq_nil_iff.mp hcs
    exact ⟨[], tokensOf.eq_1, rfl⟩
  | blank hblank h ih =>
    obtain ⟨⟨offset, c⟩, cs, rfl, rfl, hrest⟩ := List.map_eq_cons_iff.mp hcs
    obtain ⟨tokens, htokens, hkinds⟩ := ih hrest
    refine ⟨tokens, ?_, hkinds⟩
    rw [tokensOf, if_pos hblank, htokens]
  | @token kind lexeme chars kinds hwritten hends h ih =>
    -- A token is not taken for a blank, so that it is read here and not skipped.
    obtain ⟨c, lexeme, rfl, hblank⟩ := hwritten.exists_eq_cons
    obtain ⟨⟨offset, c⟩, cs, rfl, rfl, hrest⟩ := List.map_eq_cons_iff.mp hcs
    obtain ⟨front, rest, rfl, rfl, rfl⟩ := List.map_eq_append_iff.mp hrest
    obtain ⟨tokens, htokens, hkinds⟩ := ih rfl
    refine ⟨⟨kind, offset⟩ :: tokens, ?_, by rw [List.map_cons, hkinds]⟩
    rw [tokensOf, hblank, if_neg Bool.false_ne_true, readToken_of_written rfl hwritten hends]
    simp only [htokens]
    rfl

/-- Locating characters leaves them as they are. -/
theorem map_snd_locate (offset : Nat) (cs : List Char) : (locate offset cs).map Prod.snd = cs := by
  induction cs generalizing offset with
  | nil => rfl
  | cons c cs ih => rw [locate, List.map_cons, ih]

/-- The tokens of a text are those that it spells. -/
theorem spells_iff {source : String} {kinds : List TokenKind} :
    Spells source.toList kinds ↔
      ∃ tokens, tokenize source = .ok tokens ∧ tokens.map Token.kind = kinds := by
  constructor
  · intro h
    exact exists_tokensOf_of_spells h (map_snd_locate 0 source.toList)
  · rintro ⟨tokens, htokens, rfl⟩
    have h := spells_of_tokensOf htokens
    rwa [map_snd_locate] at h

/-- A text spells only one list of tokens. -/
theorem Spells.unique {source : String} {kinds kinds' : List TokenKind}
    (h : Spells source.toList kinds) (h' : Spells source.toList kinds') : kinds = kinds' := by
  obtain ⟨tokens, htokens, rfl⟩ := spells_iff.mp h
  obtain ⟨tokens', htokens', rfl⟩ := spells_iff.mp h'
  rw [htokens] at htokens'
  cases htokens'
  rfl

end KeyChord.When
