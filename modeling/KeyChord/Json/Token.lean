import KeyChord.Json.Basic
import KeyChord.Text.Hex

/-!
# Tokens of JSON texts

A JSON text is cut into signs, words, texts and numerals; blanks separate them. A text stands
between double quotes and holds no control characters, except by escapes; characters beyond the
sixteenth bit are escaped as a pair of surrogates. A numeral whose value is too great is refused.
-/

namespace KeyChord.Json

/-- Why a text writes no JSON value. -/
inductive Error where
  /-- A character that starts no token. -/
  | character (c : Char)
  /-- A word that means nothing. -/
  | word
  /-- A text that is not written as one. -/
  | text
  /-- A number that is not written as one. -/
  | numeral
  /-- A number that is too great. -/
  | outOfRange
  /-- A token that has no place here. -/
  | form
  /-- The text ends too early. -/
  | ending
  deriving DecidableEq, Repr

/-- What is wrong with the text. -/
def Error.message : Error → String
  | character c => "unexpected character " ++ String.singleton c
  | word => "expected true, false or null"
  | text => "invalid string"
  | numeral => "invalid number"
  | outOfRange => "number out of range"
  | form => "unexpected token"
  | ending => "unexpected end"

/-- A token of a JSON text. -/
inductive Token where
  /-- An opening bracket. -/
  | openArray
  /-- A closing bracket. -/
  | closeArray
  /-- An opening brace. -/
  | openObject
  /-- A closing brace. -/
  | closeObject
  /-- A comma. -/
  | comma
  /-- A colon. -/
  | colon
  /-- A value without parts. -/
  | scalar (value : Json)

/-- A character that separates tokens. -/
def isBlank (c : Char) : Bool :=
  c == ' ' || c == '\n' || c == '\t' || c == '\r'

/-! ## Texts -/

/-- The number that the first four characters write in hexadecimal digits. -/
def hexUnit? (cs : List Char) : Option Nat :=
  if (cs.take 4).length = 4 then Text.hexNumber? (cs.take 4) else none

/-- The character of the escape with the given characters after its letter, and how many of them it
takes. -/
def unicodeEscape? (cs : List Char) : Option (Char × Nat) := do
  let unit ← hexUnit? cs
  if unit.isValidChar then some (Char.ofNat unit, 4)
  else if unit < 0xDC00 then
    match cs.drop 4 with
    | '\\' :: 'u' :: more =>
      let low ← hexUnit? more
      if 0xDC00 ≤ low ∧ low ≤ 0xDFFF then
        some (Char.ofNat (0x10000 + (unit - 0xD800) * 0x400 + (low - 0xDC00)), 10)
      else none
    | _ => none
  else none

/-- The character that an escape means, of which the characters after the backslash are given, and
how many of them the escape takes. -/
def escape? : List Char → Option (Char × Nat)
  | [] => none
  | c :: rest =>
    match c with
    | '"' | '\\' | '/' => some (c, 1)
    | 'b' => some ('\x08', 1)
    | 'f' => some ('\x0C', 1)
    | 'n' => some ('\n', 1)
    | 'r' => some ('\r', 1)
    | 't' => some ('\t', 1)
    | 'u' => (unicodeEscape? rest).map fun (meant, count) => (meant, count + 1)
    | _ => none

/-- The characters of a text up to its closing quote, and how many characters they take together
with the quote. -/
def readText (cs : List Char) : Option (List Char × Nat) :=
  match cs with
  | [] => none
  | c :: rest =>
    if c = '"' then some ([], 1)
    else if c.toNat < 0x20 then none
    else if c = '\\' then
      match escape? rest with
      | none => none
      | some (meant, count) =>
        (readText (rest.drop count)).map fun (text, n) => (meant :: text, n + count + 1)
    else (readText rest).map fun (text, n) => (c :: text, n + 1)
termination_by cs.length
decreasing_by all_goals simp; try omega

/-! ## Numerals -/

/-- Digits behind a point, and what follows, if there is a point. -/
def readFraction (cs : List Char) : Except Error (Option (List Char) × List Char) :=
  match cs with
  | '.' :: rest =>
    let digits := rest.takeWhile Char.isDigit
    if digits.isEmpty then .error .numeral else .ok (some digits, rest.dropWhile Char.isDigit)
  | _ => .ok (none, cs)

/-- A power of ten, and what follows, if there is the letter for it. -/
def readExponent (cs : List Char) : Except Error (Option Int × List Char) :=
  match cs with
  | c :: rest =>
    if c = 'e' ∨ c = 'E' then
      let (negative, rest) := Number.readSign rest
      let digits := rest.takeWhile Char.isDigit
      let size : Int := Number.digitsValue digits
      if digits.isEmpty then .error .numeral
      else .ok (some (if negative then -size else size), rest.dropWhile Char.isDigit)
    else .ok (none, cs)
  | [] => .ok (none, [])

/-- The numeral that starts here, and what follows. The whole part has no leading zeros. -/
def readNumeral (cs : List Char) : Except Error (Numeral × List Char) := do
  let (negative, rest) := match cs with
    | '-' :: rest => (true, rest)
    | _ => (false, cs)
  let whole := rest.takeWhile Char.isDigit
  if whole.isEmpty ∨ (1 < whole.length ∧ whole.head? = some '0') then throw .numeral
  let (fraction, rest) ← readFraction (rest.dropWhile Char.isDigit)
  let (exponent, rest) ← readExponent rest
  let numeral : Numeral := ⟨negative, whole, fraction, exponent⟩
  if numeral.value?.isNone then throw .outOfRange
  return (numeral, rest)

/-! ## Tokens -/

/-- The value of a word. -/
def ofWord? (word : List Char) : Option Json :=
  match word with
  | ['n', 'u', 'l', 'l'] => some .null
  | ['t', 'r', 'u', 'e'] => some (.bool true)
  | ['f', 'a', 'l', 's', 'e'] => some (.bool false)
  | _ => none

/-- The token that starts with a character that is no blank, and how many characters it takes after
this one. -/
def readToken (c : Char) (rest : List Char) : Except Error (Token × Nat) :=
  match c with
  | '[' => .ok (.openArray, 0)
  | ']' => .ok (.closeArray, 0)
  | '\x7b' => .ok (.openObject, 0)
  | '\x7d' => .ok (.closeObject, 0)
  | ',' => .ok (.comma, 0)
  | ':' => .ok (.colon, 0)
  | '"' =>
    match readText rest with
    | some (text, count) => .ok (.scalar (.string (String.ofList text)), count)
    | none => .error .text
  | _ =>
    if c = '-' ∨ c.isDigit then do
      let (numeral, behind) ← readNumeral (c :: rest)
      return (.scalar (.number numeral), rest.length - behind.length)
    else if c.isAlpha then
      let word := c :: rest.takeWhile Char.isAlpha
      match ofWord? word with
      | some value => .ok (.scalar value, word.length - 1)
      | none => .error .word
    else .error (.character c)

/-- The tokens of a text. -/
def tokenize (cs : List Char) : Except Error (List Token) :=
  match cs with
  | [] => .ok []
  | c :: rest =>
    if isBlank c then tokenize rest
    else
      match readToken c rest with
      | .error error => .error error
      | .ok (token, count) => (tokenize (rest.drop count)).map (token :: ·)
termination_by cs.length
decreasing_by all_goals simp; try omega

end KeyChord.Json
