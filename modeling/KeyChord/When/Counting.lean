import KeyChord.When.Grammar
import KeyChord.When.Parser

/-!
# Parsing when-clauses with a counter

The functions of `KeyChord.When.Parser` are told how many levels remain and hand on the tokens that
remain. The same clauses can be read by procedures that share one state: the tokens, the position of
the next one, and a counter of the levels that have been taken. Each `!`, each `(` and each further
link of a chain adds one to the counter, and the parser gives up above the limit. After a negation
or a group, one is taken off again; a chain puts the counter back to where it found it.

Nothing here says that the procedures come to an end. A call is given fuel, of which each call
inside it gets one less, and a call without fuel has no result at all. Taking one off a counter at
zero is a failure of its own, which no text should cause. The state also remembers every value that
the counter has had.
-/

namespace KeyChord.When

/-- How far the tokens have been read. -/
structure Progress where
  /-- All tokens. -/
  tokens : List Token
  /-- The number of tokens that have been read. -/
  position : Nat
  /-- The counter of levels. -/
  depth : Nat
  /-- The values that the counter has been set to, the latest first. -/
  depths : List Nat
  deriving DecidableEq

namespace Progress

/-- Nothing has been read. -/
def start (tokens : List Token) : Progress :=
  ⟨tokens, 0, 0, []⟩

/-- One more token has been read. -/
def advance (s : Progress) : Progress :=
  { s with position := s.position + 1 }

/-- The counter has been set. -/
def setDepth (depth : Nat) (s : Progress) : Progress :=
  { s with depth, depths := depth :: s.depths }

@[simp]
theorem depth_advance (s : Progress) : s.advance.depth = s.depth := rfl

@[simp]
theorem depth_setDepth (depth : Nat) (s : Progress) : (s.setDepth depth).depth = depth := rfl

end Progress

/-- Why there is no expression. -/
inductive Failure where
  /-- The tokens are no when-clause. -/
  | parse (error : ParseError)
  /-- The counter was to be lowered at zero. -/
  | underflow
  deriving DecidableEq

/-- A computation on the state, which it also changes if it fails. There is no result if the fuel
does not suffice. -/
abbrev Counting := ExceptT Failure (StateT Progress Option)

namespace Counting

/-- What a computation comes to in a state, and the state after it. -/
def run {α : Type} (m : Counting α) (s : Progress) : Option (Except Failure α × Progress) :=
  StateT.run (ExceptT.run m) s

/-- There is no fuel left. -/
def exhausted {α : Type} : Counting α :=
  StateT.lift none

/-- Gives up on the tokens. -/
def fail {α : Type} (error : ParseError) : Counting α :=
  throw (.parse error)

/-! ## Tokens -/

/-- The next token. -/
def peek : Counting (Option Token) := do
  let s ← get
  return s.tokens[s.position]?

/-- Reads the next token, if there is one. -/
def next : Counting (Option Token) := do
  let token? ← peek
  if token?.isSome then
    modify Progress.advance
  return token?

/-- Reads the next token, and gives up if there is none. -/
def nextOr (error : ParseError) : Counting Token := do
  match ← next with
  | none => fail error
  | some token => return token

/-- Reads the next token if it is of the given kind. -/
def eat (kind : TokenKind) : Counting Bool := do
  if (← peek).map Token.kind = some kind then
    modify Progress.advance
    return true
  else
    return false

/-! ## The counter -/

/-- The counter. -/
def depth : Counting Nat :=
  return (← get).depth

/-- Sets the counter. -/
def setDepth (n : Nat) : Counting Unit :=
  modify (Progress.setDepth n)

/-- Adds one to the counter, and gives up if that is too much. -/
def descend : Counting Unit := do
  setDepth ((← depth) + 1)
  if depthLimit < (← depth) then
    fail .tooDeep

/-- Takes one off the counter. -/
def ascend : Counting Unit := do
  match ← depth with
  | 0 => throw .underflow
  | n + 1 => setDepth n

/-! ## Comparisons and parentheses -/

/-- Reads the value at the right of a comparison of the key at the offset. -/
def value (offset : Nat) : Counting Value := do
  let token ← nextOr (.missingValue offset)
  match token.kind with
  | .string text => return .string text
  | .number n => return .number n
  | .word text =>
    if text = "true" then return .bool true
    else if text = "false" then return .bool false
    else return .string text
  | _ => fail (.unexpectedToken token)

/-- Reads a key or a comparison, of which the key has been read. -/
def comparison (key : String) (offset : Nat) : Counting Expr := do
  if ← eat .equals then
    return .equals key (← value offset)
  else if ← eat .differs then
    return .differs key (← value offset)
  else
    return .key key

/-- Reads the parenthesis that ends a group. -/
def close (inner : Expr) : Counting Expr := do
  let token ← nextOr .unexpectedEnd
  if token.kind = .closeParen then return inner else fail (.unexpectedToken token)

end Counting

/-! ## The procedures -/

/-- What is read by a procedure of its own. -/
inductive Procedure where
  /-- A chain of an operator. -/
  | chain (c : Connective)
  /-- A negation, a group, a comparison or a key. -/
  | unary
  /-- A group, a comparison or a key. -/
  | primary
  deriving DecidableEq

/-- The procedure for a category of the grammar. -/
def Category.procedure : Category → Procedure
  | chain c => .chain c
  | unary => .unary

namespace Procedure

open Counting

mutual

/-- A call of the procedure with so much fuel. -/
def call : Procedure → Nat → Counting Expr
  | _, 0 => exhausted
  | chain c, fuel + 1 => do
    let base ← depth
    let left ← call c.operand.procedure fuel
    links c base left fuel
  | unary, fuel + 1 => do
    if ← eat .not then
      descend
      let inner ← call unary fuel
      ascend
      return .not inner
    else
      call primary fuel
  | primary, fuel + 1 => do
    let token ← nextOr .unexpectedEnd
    match token.kind with
    | .openParen =>
      descend
      let inner ← call (chain .or) fuel
      ascend
      close inner
    | .word key => comparison key token.offset
    | _ => fail (.unexpectedToken token)

/-- Reads the further links of a chain. The counter was at the base when the chain began. -/
def links (c : Connective) (base : Nat) (left : Expr) : Nat → Counting Expr
  | 0 => exhausted
  | fuel + 1 => do
    if ← eat c.kind then
      descend
      let right ← call c.operand.procedure fuel
      links c base (c.expr left right) fuel
    else
      setDepth base
      return left

end

end Procedure

/-- Reads the expression that all the tokens write. -/
def Counting.whole (fuel : Nat) : Counting Expr := do
  let e ← (Procedure.chain .or).call fuel
  match ← peek with
  | none => return e
  | some token => fail (.unexpectedToken token)

end KeyChord.When
