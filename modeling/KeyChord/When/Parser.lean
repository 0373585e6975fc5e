import KeyChord.When.Expr
import KeyChord.When.Token

/-!
# Parsing when-clauses

    or      := and ("||" and)*
    and     := unary ("&&" unary)*
    unary   := "!" unary | primary
    primary := "(" or ")" | word [("==" | "!=") value]
    value   := string | number | word

Both chains group to the left. As a value, the words `true` and `false` are truth values and any
other word is a string.

Each `!`, each `(` and each further link of a chain lowers by one the number of levels that remain
for what follows it inside; the parser gives up when none remains. The chain or the parenthesis
done, the number is again what it was before. So each function of the parser takes the number of
remaining levels, and recurs with a smaller one.
-/

namespace KeyChord.When

/-- An expression at the front of some tokens, and the tokens after it. -/
abbrev Parsed := Except ParseError (Expr × List Token)

/-- The value at the right of a comparison of the key at the offset. -/
def parseValue (offset : Nat) : List Token → Except ParseError (Value × List Token)
  | [] => .error (.missingValue offset)
  | token :: rest =>
    match token.kind with
    | .string text => .ok (.string text, rest)
    | .number n => .ok (.number n, rest)
    | .word text =>
      if text = "true" then .ok (.bool true, rest)
      else if text = "false" then .ok (.bool false, rest)
      else .ok (.string text, rest)
    | _ => .error (.unexpectedToken token)

/-- A key or a comparison, of which the key has been read. -/
def parseComparison (key : String) (offset : Nat) : List Token → Parsed
  | [] => .ok (.key key, [])
  | token :: rest =>
    match token.kind with
    | .equals => (parseValue offset rest).map fun (value, rest) => (.equals key value, rest)
    | .differs => (parseValue offset rest).map fun (value, rest) => (.differs key value, rest)
    | _ => .ok (.key key, token :: rest)

/-- The parenthesis that ends a group. -/
def parseClose (inner : Expr) : List Token → Parsed
  | [] => .error .unexpectedEnd
  | token :: rest =>
    if token.kind = .closeParen then .ok (inner, rest) else .error (.unexpectedToken token)

mutual

/-- A chain of `||`. -/
def parseOr (levels : Nat) (tokens : List Token) : Parsed :=
  match parseAnd levels tokens with
  | .error e => .error e
  | .ok (left, rest) => parseOrLinks levels left rest
termination_by (levels, 3)

/-- The further links of a chain of `||`. -/
def parseOrLinks (levels : Nat) (left : Expr) (tokens : List Token) : Parsed :=
  match tokens with
  | ⟨.or, _⟩ :: rest =>
    match levels with
    | 0 => .error .tooDeep
    | levels + 1 =>
      match parseAnd levels rest with
      | .error e => .error e
      | .ok (right, rest) => parseOrLinks levels (.or left right) rest
  | _ => .ok (left, tokens)
termination_by (levels, 0)

/-- A chain of `&&`. -/
def parseAnd (levels : Nat) (tokens : List Token) : Parsed :=
  match parseUnary levels tokens with
  | .error e => .error e
  | .ok (left, rest) => parseAndLinks levels left rest
termination_by (levels, 2)

/-- The further links of a chain of `&&`. -/
def parseAndLinks (levels : Nat) (left : Expr) (tokens : List Token) : Parsed :=
  match tokens with
  | ⟨.and, _⟩ :: rest =>
    match levels with
    | 0 => .error .tooDeep
    | levels + 1 =>
      match parseUnary levels rest with
      | .error e => .error e
      | .ok (right, rest) => parseAndLinks levels (.and left right) rest
  | _ => .ok (left, tokens)
termination_by (levels, 0)

/-- A negation, a group, a comparison or a key. -/
def parseUnary (levels : Nat) (tokens : List Token) : Parsed :=
  match tokens with
  | [] => .error .unexpectedEnd
  | ⟨.not, _⟩ :: rest =>
    match levels with
    | 0 => .error .tooDeep
    | levels + 1 => (parseUnary levels rest).map fun (inner, rest) => (.not inner, rest)
  | ⟨.openParen, _⟩ :: rest =>
    match levels with
    | 0 => .error .tooDeep
    | levels + 1 =>
      match parseOr levels rest with
      | .error e => .error e
      | .ok (inner, rest) => parseClose inner rest
  | ⟨.word key, offset⟩ :: rest => parseComparison key offset rest
  | token :: _ => .error (.unexpectedToken token)
termination_by (levels, 1)

end

/-- The expression that all the tokens write. -/
def parseTokens (tokens : List Token) : Except ParseError Expr :=
  if tokens.isEmpty then .error .empty
  else
    match parseOr depthLimit tokens with
    | .error e => .error e
    | .ok (e, []) => .ok e
    | .ok (_, token :: _) => .error (.unexpectedToken token)

/-- The expression that a text writes. -/
def parse (source : String) : Except ParseError Expr :=
  (tokenize source).bind parseTokens

end KeyChord.When
