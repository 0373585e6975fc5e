import KeyChord.Number.Printer
import KeyChord.Number.Reader
import KeyChord.Text.Blank
import KeyChord.Text.Letters
import KeyChord.Text.Quoted

/-!
# Tokens of when-clauses

A when-clause is cut into words, quoted strings, numbers, operators and parentheses; blanks separate
them and count for nothing else. Positions are byte offsets into the UTF-8 form of the clause.
-/

namespace KeyChord.When

/-- What a token is. -/
inductive TokenKind where
  /-- A context key, or a value without quotes. -/
  | word (text : String)
  /-- The characters between two equal quotes. -/
  | string (text : String)
  /-- A number. -/
  | number (n : Number)
  /-- The operator `!`. -/
  | not
  /-- The operator `&&`. -/
  | and
  /-- The operator `||`. -/
  | or
  /-- The operator `==`. -/
  | equals
  /-- The operator `!=`. -/
  | differs
  /-- The opening parenthesis. -/
  | openParen
  /-- The closing parenthesis. -/
  | closeParen
  deriving DecidableEq, Repr

/-- How a message names a token. -/
def TokenKind.description : TokenKind → String
  | word text => "identifier '" ++ text ++ "'"
  | string text => "string '" ++ text ++ "'"
  | number n => "number " ++ n.text
  | not => "'!'"
  | and => "'&&'"
  | or => "'||'"
  | equals => "'=='"
  | differs => "'!='"
  | openParen => "'('"
  | closeParen => "')'"

/-- A token and where it starts. -/
structure Token where
  /-- What the token is. -/
  kind : TokenKind
  /-- The offset of its first character. -/
  offset : Nat
  deriving DecidableEq, Repr

/-- The number of operators, parentheses and links of a chain that may enclose one another. -/
def depthLimit : Nat := 128

/-- Why a text is no when-clause. -/
inductive ParseError where
  /-- There is nothing but blanks. -/
  | empty
  /-- A character that starts no token, or a number that is none. -/
  | unexpectedChar (c : Char) (offset : Nat)
  /-- A string whose second quote is missing. -/
  | unterminatedString (offset : Nat)
  /-- A token where the grammar has no place for it. -/
  | unexpectedToken (token : Token)
  /-- The end of the text where the grammar wants more. -/
  | unexpectedEnd
  /-- A comparison without a value at the end of the text; the offset is that of its key. -/
  | missingValue (offset : Nat)
  /-- Too many levels. -/
  | tooDeep
  deriving DecidableEq, Repr

/-- What is wrong with the text. -/
def ParseError.message : ParseError → String
  | empty => "empty expression"
  | unexpectedChar c offset =>
    "unexpected character " ++ Text.quotedChar c ++ " at " ++ toString offset
  | unterminatedString offset => "unterminated string starting at " ++ toString offset
  | unexpectedToken token =>
    "unexpected " ++ token.kind.description ++ " at " ++ toString token.offset
  | unexpectedEnd => "unexpected end of expression"
  | missingValue offset => "expected a value after comparison at " ++ toString offset
  | tooDeep => "expression nested deeper than " ++ toString depthLimit ++ " levels"

/-- A character and its offset. -/
abbrev Located := Nat × Char

/-- The characters with their offsets, of which the first is given. -/
def locate (offset : Nat) : List Char → List Located
  | [] => []
  | c :: rest => (offset, c) :: locate (offset + c.utf8Size) rest

/-- A character that starts a word. -/
def startsWord (c : Char) : Bool :=
  Text.isAlphabetic c || c == '_' || c == '$'

/-- A character that continues a word. -/
def continuesWord (c : Char) : Bool :=
  Text.isAlphanumeric c || c == '_' || c == '$' || c == '.' || c == '-' || c == ':' || c == '/'

/-- A character that starts a number. -/
def startsNumber (c : Char) : Bool :=
  c.isDigit || c == '-'

/-- A character that continues a number. -/
def continuesNumber (c : Char) : Bool :=
  c.isDigit || c == '.'

/-- What is left of some characters when a token has been taken from their front. -/
abbrev Remainder (cs : List Located) := { rest : List Located // rest.length ≤ cs.length }

/-- The characters as long as they satisfy the condition, and the others. -/
def spanWhile (p : Char → Bool) (cs : List Located) : List Char × Remainder cs :=
  ((cs.takeWhile (p ·.2)).map (·.2),
    ⟨cs.dropWhile (p ·.2), (List.dropWhile_sublist _).length_le⟩)

/-- Skips the next character if it is the given one. -/
def skip? (c : Char) (cs : List Located) : Option (Remainder cs) :=
  match cs with
  | [] => none
  | head :: rest => if head.2 = c then some ⟨rest, Nat.le_succ _⟩ else none

/-- The token whose first character has been read, and what is left. -/
def readToken (offset : Nat) (c : Char) (cs : List Located) :
    Except ParseError (TokenKind × Remainder cs) :=
  let whole : Remainder cs := ⟨cs, Nat.le_refl _⟩
  let doubled (kind : TokenKind) : Except ParseError (TokenKind × Remainder cs) :=
    match skip? c cs with
    | some rest => .ok (kind, rest)
    | none => .error (.unexpectedChar c offset)
  if c = '(' then .ok (.openParen, whole)
  else if c = ')' then .ok (.closeParen, whole)
  else if c = '!' then
    match skip? '=' cs with
    | some rest => .ok (.differs, rest)
    | none => .ok (.not, whole)
  else if c = '&' then doubled .and
  else if c = '|' then doubled .or
  else if c = '=' then doubled .equals
  else if c = '\'' ∨ c = '"' then
    let (text, rest) := spanWhile (· != c) cs
    match rest with
    | ⟨[], _⟩ => .error (.unterminatedString offset)
    | ⟨_ :: rest, h⟩ => .ok (.string (String.ofList text), ⟨rest, Nat.le_of_succ_le h⟩)
  else if startsNumber c then
    let (text, rest) := spanWhile continuesNumber cs
    match Number.read? (c :: text) with
    | some n => .ok (.number n, rest)
    | none => .error (.unexpectedChar c offset)
  else if startsWord c then
    let (text, rest) := spanWhile continuesWord cs
    .ok (.word (String.ofList (c :: text)), rest)
  else .error (.unexpectedChar c offset)

/-- The tokens of located characters, in order. -/
def tokensOf : List Located → Except ParseError (List Token)
  | [] => .ok []
  | (offset, c) :: cs =>
    if Text.isBlank c then tokensOf cs
    else
      match readToken offset c cs with
      | .error e => .error e
      | .ok (kind, ⟨rest, _⟩) => (tokensOf rest).map (⟨kind, offset⟩ :: ·)
termination_by cs => cs.length

/-- The tokens of a text, in order. -/
def tokenize (source : String) : Except ParseError (List Token) :=
  tokensOf (locate 0 source.toList)

end KeyChord.When
