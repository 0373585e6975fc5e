import KeyChord.Text.Hex
import KeyChord.Yaml.Cursor

/-!
# Scalars

The texts of a YAML document: plain, quoted, or a block of lines. A line break inside a plain or
quoted scalar is folded: one break becomes a space, and of several the first is dropped.
-/

namespace KeyChord.Yaml

/-- The ways to write a scalar. -/
inductive Style where
  /-- Without quotes. -/
  | plain
  /-- Between single quotes. -/
  | singleQuoted
  /-- Between double quotes. -/
  | doubleQuoted
  /-- Lines kept as they are. -/
  | literal
  /-- Lines joined to paragraphs. -/
  | folded
  deriving DecidableEq, Repr

/-- The line breaks between two words of a scalar, folded. -/
def foldBreaks : List Char → List Char
  | ['\n'] => [' ']
  | '\n' :: more => more
  | breaks => breaks

namespace Cursor

theorem length_skip_one_lt {c : Cursor} {char : Char} {rest : List Char}
    (h : c.rest = char :: rest) : (c.skip 1).rest.length < c.rest.length := by
  rw [length_skip, h]
  simp

theorem length_takeBreak_lt {c : Cursor} {char : Char} {rest : List Char}
    (h : c.rest = char :: rest) (hb : isBreak char = true) :
    c.takeBreak.2.rest.length < c.rest.length := by
  unfold takeBreak
  simp only [h]
  split
  · grind
  · next hcons =>
    obtain ⟨rfl, rfl⟩ := List.cons.inj hcons
    split <;> simp_all
  · next hnil => simp at hnil

/-- The spaces, tabs and line breaks from here on: the spaces and tabs before the first break, the
breaks, and the place after them all. What stands on a line after a break only indents it; there, no
tab may stand left of `indent`. `broken` tells that a break has been passed already. -/
def readBlanks (indent : Nat) (broken : Bool) (spaces breaks : List Char) (c : Cursor) :
    Except Error (List Char × List Char × Bool × Cursor) :=
  match _h : c.rest with
  | [] => .ok (spaces, breaks, broken, c)
  | char :: _ =>
    if isSpace char then
      if !broken then readBlanks indent false (spaces ++ [char]) breaks (c.skip 1)
      else if char == '\t' && decide (c.column < indent) then .error .tab
      else readBlanks indent true spaces breaks (c.skip 1)
    else if _hb : isBreak char then
      readBlanks indent true [] (breaks ++ c.takeBreak.1) c.takeBreak.2
    else .ok (spaces, breaks, broken, c)
termination_by c.rest.length
decreasing_by
  · exact length_skip_one_lt _h
  · exact length_skip_one_lt _h
  · exact length_takeBreak_lt _h _hb

theorem length_readBlanks_le {indent : Nat} {broken : Bool} {spaces breaks : List Char} {c : Cursor}
    {found : List Char × List Char × Bool × Cursor}
    (h : c.readBlanks indent broken spaces breaks = .ok found) :
    found.2.2.2.rest.length ≤ c.rest.length := by
  fun_induction readBlanks indent broken spaces breaks c <;>
    grind [length_skip_one_lt, length_takeBreak_lt]

/-- Blanks that are there are passed. -/
theorem length_readBlanks_lt {indent : Nat} {broken : Bool} {spaces breaks : List Char}
    {c : Cursor} {found : List Char × List Char × Bool × Cursor} {char : Char} {rest : List Char}
    (h : c.readBlanks indent broken spaces breaks = .ok found) (hc : c.rest = char :: rest)
    (hs : isSeparator char = true) : found.2.2.2.rest.length < c.rest.length := by
  revert h
  fun_cases readBlanks indent broken spaces breaks c <;> intro h
  case case1 hnil => simp [hnil] at hc
  case case2 | case4 => exact Nat.lt_of_le_of_lt (length_readBlanks_le h) (length_skip_one_lt hc)
  case case3 => simp at h
  case case5 hcons _ hb =>
    exact Nat.lt_of_le_of_lt (length_readBlanks_le h) (length_takeBreak_lt hcons hb)
  case case6 => simp_all [isSeparator]

end Cursor

/-! ## Plain scalars -/

/-- A character that stands between the entries of a flow collection. -/
def isFlowIndicator (c : Char) : Bool :=
  c == ',' || c == '[' || c == ']' || c == '{' || c == '}'

/-- The characters of a plain scalar from here to a separator, to a colon that ends a key or, in a
flow collection, to the end of an entry. -/
def plainRun (inFlow : Bool) : List Char → Except Error (List Char)
  | [] => .ok []
  | c :: rest =>
    if isSeparator c then .ok []
    else if inFlow && c == ':' && rest.head?.any (fun d => d == '?' || isFlowIndicator d) then
      .error .colon
    else if c == ':' && rest.head?.all isSeparator then .ok []
    else if inFlow && isFlowIndicator c then .ok []
    else (plainRun inFlow rest).map (c :: ·)

theorem length_skip_plainRun_lt {inFlow : Bool} {c : Cursor} {char : Char} {chars : List Char}
    (h : plainRun inFlow c.rest = .ok (char :: chars)) :
    (c.skip (char :: chars).length).rest.length < c.rest.length := by
  cases hc : c.rest with
  | nil => simp [hc, plainRun] at h
  | cons =>
    simp only [Cursor.length_skip, hc, List.length_cons]
    omega

/-- The further words of a plain scalar, after the `gap` in front of the first of them: the text
with its gaps, whether a line break has been passed after the last word, and the place after the
scalar. If no word follows, there is no gap either. -/
def readPlainWords (inFlow : Bool) (indent : Nat) (gap : List Char) (broken : Bool) (c : Cursor) :
    Except Error (List Char × Bool × Cursor) :=
  if c.atDocumentMarker || c.at? '#' then .ok ([], broken, c)
  else
    match _hw : plainRun inFlow c.rest with
    | .error e => .error e
    | .ok [] => .ok ([], broken, c)
    | .ok (char :: chars) =>
      let word := char :: chars
      let behind := c.skip word.length
      if behind.rest.head?.any isSeparator then
        match _hb : behind.readBlanks indent false [] [] with
        | .error e => .error e
        | .ok (spaces, breaks, broken, next) =>
          -- What stands too far left belongs to a collection around the scalar.
          if !inFlow && decide (next.column < indent) then .ok (gap ++ word, broken, next)
          else
            let between := if broken then foldBreaks breaks else spaces
            (readPlainWords inFlow indent between broken next).map fun (text, done) =>
              (gap ++ word ++ text, done)
      else .ok (gap ++ word, false, behind)
termination_by c.rest.length
decreasing_by
  exact Nat.lt_of_le_of_lt (Cursor.length_readBlanks_le _hb) (length_skip_plainRun_lt _hw)

/-- The plain scalar that starts here: its text, whether a line break follows it, and the place
after it. Its further lines are indented by `indent`, except in a flow collection. -/
def readPlain (inFlow : Bool) (indent : Nat) (c : Cursor) :
    Except Error (List Char × Bool × Cursor) :=
  readPlainWords inFlow indent [] false c

/-! ## Quoted scalars -/

/-- The character whose code point the first `count` hexadecimal digits write. -/
def hexChar? (count : Nat) (cs : List Char) : Option Char := do
  let digits := cs.take count
  let code ← Text.hexNumber? digits
  if digits.length = count ∧ code.isValidChar then some (Char.ofNat code) else none

/-- The character that an escape means, of which the characters after the backslash are given, and
how many of them the escape takes. -/
def escape? : List Char → Option (Char × Nat)
  | [] => none
  | c :: rest =>
    match c with
    | '0' => some ('\x00', 1)
    | 'a' => some ('\x07', 1)
    | 'b' => some ('\x08', 1)
    | 't' | '\t' => some ('\t', 1)
    | 'n' => some ('\n', 1)
    | 'v' => some ('\x0B', 1)
    | 'f' => some ('\x0C', 1)
    | 'r' => some ('\r', 1)
    | 'e' => some ('\x1B', 1)
    | ' ' | '"' | '/' | '\\' => some (c, 1)
    | 'N' => some ('\x85', 1)
    | '_' => some ('\xA0', 1)
    | 'L' => some ('\u2028', 1)
    | 'P' => some ('\u2029', 1)
    | 'x' => (hexChar? 2 rest).map (·, 3)
    | 'u' => (hexChar? 4 rest).map (·, 5)
    | 'U' => (hexChar? 8 rest).map (·, 9)
    | _ => none

/-- The quote that ends a quoted scalar. -/
def closingQuote (double : Bool) : Char :=
  if double then '"' else '\''

/-- The characters of a quoted scalar from here to a separator or to the closing quote, whether an
escaped line break has ended them, and the place after them. -/
def readQuotedWord (double : Bool) (c : Cursor) : Except Error (List Char × Bool × Cursor) :=
  match _h : c.rest with
  | [] => .ok ([], false, c)
  | char :: rest =>
    if isSeparator char then .ok ([], false, c)
    else if !double && char == '\'' then
      if rest.head? == some '\'' then
        (readQuotedWord double (c.skip 2)).map fun (text, done) => ('\'' :: text, done)
      else .ok ([], false, c)
    else if double && char == '"' then .ok ([], false, c)
    else if double && char == '\\' then
      if rest.head?.any isBreak then .ok ([], true, (c.skip 1).skipBreak)
      else
        match escape? rest with
        | none => .error .escape
        | some (meant, count) =>
          (readQuotedWord double (c.skip (1 + count))).map fun (text, done) => (meant :: text, done)
    else (readQuotedWord double (c.skip 1)).map fun (text, done) => (char :: text, done)
termination_by c.rest.length
decreasing_by all_goals grind [Cursor.length_skip]

/-- A result that is changed is there. -/
theorem exists_of_map_eq_ok {α β : Type} {f : α → β} {x : Except Error α} {y : β}
    (h : x.map f = .ok y) : ∃ a, x = .ok a ∧ f a = y := by
  cases x with
  | error => simp [Except.map] at h
  | ok a => exact ⟨a, rfl, Except.ok.inj h⟩

theorem length_readQuotedWord_le {double : Bool} {c : Cursor} {found : List Char × Bool × Cursor}
    (h : readQuotedWord double c = .ok found) : found.2.2.rest.length ≤ c.rest.length := by
  fun_induction readQuotedWord double c generalizing found <;> try obtain rfl := Except.ok.inj h
  case case3 ih | case8 ih | case9 ih =>
    obtain ⟨more, hmore, rfl⟩ := exists_of_map_eq_ok h
    have hle := ih hmore
    grind [Cursor.length_skip]
  all_goals grind [Cursor.length_skip, Cursor.length_takeBreak_le, Cursor.skipBreak]

/-- A word of a quoted scalar and the blanks after it are not both empty. -/
theorem length_quoted_lt {double escaped : Bool} {c behind : Cursor} {word : List Char}
    {found : List Char × List Char × Bool × Cursor}
    (hw : readQuotedWord double c = .ok (word, escaped, behind)) (hc : c.atEnd = false)
    (hq : behind.at? (closingQuote double) = false)
    (hb : behind.readBlanks 0 escaped [] [] = .ok found) :
    found.2.2.2.rest.length < c.rest.length := by
  have hle := Cursor.length_readBlanks_le hb
  revert hw
  fun_cases readQuotedWord double c <;> intro hw
  case case1 hnil => simp [Cursor.atEnd, hnil] at hc
  case case2 hcons hs =>
    obtain ⟨-, -, rfl⟩ := by simpa using hw
    exact Cursor.length_readBlanks_lt hb hcons hs
  case case3 | case8 | case9 =>
    obtain ⟨more, hmore, heq⟩ := exists_of_map_eq_ok hw
    have := length_readQuotedWord_le hmore
    grind [Cursor.length_skip]
  case case4 => simp_all [Cursor.at?, closingQuote]
  case case5 => simp_all [Cursor.at?, closingQuote]
  case case6 => grind [Cursor.length_skip, Cursor.length_takeBreak_le, Cursor.skipBreak]
  case case7 => simp at hw

/-- A quoted scalar after its first words: the further text, and the place after the closing
quote. -/
def readQuotedWords (double : Bool) (c : Cursor) : Except Error (List Char × Cursor) :=
  if c.atDocumentMarker || c.atEnd then .error .unterminated
  else
    match _hw : readQuotedWord double c with
    | .error e => .error e
    | .ok (word, escaped, behind) =>
      if behind.at? (closingQuote double) then .ok (word, behind.skip 1)
      else
        match _hb : behind.readBlanks 0 escaped [] [] with
        | .error e => .error e
        | .ok (spaces, breaks, broken, next) =>
          let gap := if escaped then breaks else if broken then foldBreaks breaks else spaces
          (readQuotedWords double next).map fun (text, c) => (word ++ gap ++ text, c)
termination_by c.rest.length
decreasing_by
  exact length_quoted_lt _hw (by simp_all) (by simp_all) _hb

/-- The quoted scalar whose opening quote stands here, and the place after it. -/
def readQuoted (double : Bool) (c : Cursor) : Except Error (List Char × Cursor) :=
  readQuotedWords double (c.skip 1)

/-! ## Block scalars -/

/-- What happens to the line breaks at the end of a block scalar. -/
inductive Chomping where
  /-- One is kept. -/
  | clip
  /-- None is kept. -/
  | strip
  /-- All are kept. -/
  | keep
  deriving DecidableEq

/-- A sign of the header of a block scalar that tells its chomping. -/
def chomping? : Option Char → Option Chomping
  | some '+' => some .keep
  | some '-' => some .strip
  | _ => none

/-- The indentation that the header of a block scalar tells, and the place after it; zero if it
tells none. -/
def readIncrement (c : Cursor) : Except Error (Nat × Cursor) :=
  match c.head? with
  | some char =>
    if char == '0' then .error .indentation
    else if char.isDigit then .ok (char.toNat - '0'.toNat, c.skip 1)
    else .ok (0, c)
  | none => .ok (0, c)

/-- The header of a block scalar after its first sign: the chomping, the indentation or zero, and
the place after the line. -/
def readBlockHeader (c : Cursor) : Except Error (Chomping × Nat × Cursor) := do
  match chomping? c.head? with
  | some chomping =>
    let (increment, c) ← readIncrement (c.skip 1)
    return (chomping, increment, ← c.skipLineEnd)
  | none =>
    let (increment, c) ← readIncrement c
    match if increment = 0 then none else chomping? c.head? with
    | some chomping => return (chomping, increment, ← (c.skip 1).skipLineEnd)
    | none => return (.clip, increment, ← c.skipLineEnd)

/-- The place after the spaces that indent a line, of which there are at most `indent`; an `indent`
of zero is not known yet, and all are passed. -/
def Cursor.skipIndent (c : Cursor) (indent : Nat) : Cursor :=
  let spaces := (c.rest.takeWhile (· == ' ')).length
  c.skip (if indent = 0 then spaces else min spaces (indent - c.column))

theorem Cursor.length_skipIndent_le (c : Cursor) (indent : Nat) :
    (c.skipIndent indent).rest.length ≤ c.rest.length := by
  simp [skipIndent, length_skip]

/-- The empty lines from here on and the indentation of the line after them: the breaks, the
greatest indentation met, and the place. -/
def readEmptyLines (indent widest : Nat) (breaks : List Char) (c : Cursor) :
    Except Error (List Char × Nat × Cursor) :=
  let line := c.skipIndent indent
  let widest := max widest line.column
  if (indent = 0 ∨ line.column < indent) ∧ line.at? '\t' then .error .tab
  else
    match _h : line.rest with
    | [] => .ok (breaks, widest, line)
    | char :: _ =>
      if _hb : isBreak char then
        readEmptyLines indent widest (breaks ++ line.takeBreak.1) line.takeBreak.2
      else .ok (breaks, widest, line)
termination_by c.rest.length
decreasing_by
  exact Nat.lt_of_lt_of_le (Cursor.length_takeBreak_lt _h _hb)
    (Cursor.length_skipIndent_le c indent)

theorem length_readEmptyLines_le {indent widest : Nat} {breaks : List Char} {c : Cursor}
    {found : List Char × Nat × Cursor} (h : readEmptyLines indent widest breaks c = .ok found) :
    found.2.2.rest.length ≤ c.rest.length := by
  fun_induction readEmptyLines indent widest breaks c <;>
    grind [Cursor.length_takeBreak_lt, Cursor.length_skipIndent_le]

/-- The lines of a block scalar of known indentation. `lead` is the break after the line before,
`breaks` are those of the empty lines after it, and `spaced` tells whether it started with a
space. The result is the text, what takes the place of `lead` and of `breaks` after its last line,
and the place. -/
def readBlockLines (isFolded : Bool) (indent : Nat) (lead breaks : List Char) (spaced : Bool)
    (c : Cursor) : Except Error (List Char × List Char × List Char × Cursor) :=
  match _h : c.rest with
  | [] => .ok ([], lead, breaks, c)
  | char :: rest =>
    if c.column = indent then
      -- Two lines of a paragraph are joined by a space, unless empty lines already part them.
      let joint :=
        if isFolded && lead == ['\n'] && !spaced && !isSpace char then
          if breaks.isEmpty then [' '] else []
        else lead
      let line := char :: rest.takeWhile (!isBreak ·)
      let behind := (c.skip line.length).takeBreak
      match _he : readEmptyLines indent 0 [] behind.2 with
      | .error e => .error e
      | .ok (empty, _, next) =>
        (readBlockLines isFolded indent behind.1 empty (isSpace char) next).map fun (text, done) =>
          (joint ++ breaks ++ line ++ text, done)
    else .ok ([], lead, breaks, c)
termination_by c.rest.length
decreasing_by
  have hskip : (c.skip line.length).rest.length < c.rest.length := by
    simp only [Cursor.length_skip, _h, line, List.length_cons]
    omega
  have hbreak := Cursor.length_takeBreak_le (c.skip line.length)
  exact Nat.lt_of_le_of_lt (length_readEmptyLines_le _he) (Nat.lt_of_le_of_lt hbreak hskip)

/-- The block scalar whose first sign stands here, inside a collection that is indented by
`parent`, if by any: its text and the place after it. -/
def readBlock (isFolded : Bool) (parent : Option Nat) (c : Cursor) :
    Except Error (List Char × Cursor) := do
  let (chomping, increment, c) ← readBlockHeader (c.skip 1)
  let told := if increment = 0 then 0 else parent.getD 0 + increment
  -- Where the header does not tell, the first line that is not empty gives the indentation.
  let (breaks, widest, c) ← readEmptyLines told 0 [] c
  let least := parent.elim 1 (· + 1)
  let indent := if told = 0 then max widest least else told
  let (text, lead, breaks, c) ← readBlockLines isFolded indent [] breaks false c
  match chomping with
  | .strip => return (text, c)
  | .clip => return (text ++ lead, c)
  | .keep => return (text ++ lead ++ breaks, c)

end KeyChord.Yaml
