import KeyChord.Json.Token

/-!
# Reading JSON

The tokens of a text are taken one by one, and the arrays and objects that are still open are kept
on a stack.
-/

namespace KeyChord.Json

/-- An array or an object that is still open, with what it holds so far, the latest first. -/
inductive Open where
  /-- An array. -/
  | array (items : List Json)
  /-- An object, and the name of the member whose value is being read. -/
  | object (members : List (String × Json)) (name : String)

/-- What may come next. -/
inductive Progress where
  /-- A value. -/
  | before (stack : List Open)
  /-- The first item of an array, or its end. -/
  | firstItem (stack : List Open)
  /-- The name of a member, or the end of the object if `first`. -/
  | name (members : List (String × Json)) (first : Bool) (stack : List Open)
  /-- The colon after the name of a member. -/
  | colon (members : List (String × Json)) (name : String) (stack : List Open)
  /-- What follows a value. -/
  | behind (value : Json) (stack : List Open)

namespace Progress

/-- Takes the first token of a value. -/
def beginValue (stack : List Open) : Token → Option Progress
  | .scalar value => some (behind value stack)
  | .openArray => some (firstItem stack)
  | .openObject => some (name [] true stack)
  | _ => none

/-- Takes the token after a value. -/
def endValue (value : Json) (stack : List Open) (token : Token) : Option Progress :=
  match stack, token with
  | .array items :: stack, .comma => some (.before (.array (value :: items) :: stack))
  | .array items :: stack, .closeArray => some (behind (.array (value :: items).reverse) stack)
  | .object members key :: stack, .comma => some (name ((key, value) :: members) false stack)
  | .object members key :: stack, .closeObject =>
    some (behind (.object ((key, value) :: members).reverse) stack)
  | _, _ => none

/-- Takes one token. -/
def step (progress : Progress) (token : Token) : Option Progress :=
  match progress with
  | before stack => beginValue stack token
  | firstItem stack =>
    match token with
    | .closeArray => some (behind (.array []) stack)
    | _ => beginValue (.array [] :: stack) token
  | name members first stack =>
    match token with
    | .scalar (.string key) => some (colon members key stack)
    | .closeObject => if first then some (behind (.object []) stack) else none
    | _ => none
  | colon members key stack =>
    match token with
    | .colon => some (before (.object members key :: stack))
    | _ => none
  | behind value stack => endValue value stack token

end Progress

/-- The value that the tokens write. -/
def ofTokens (tokens : List Token) : Except Error Json :=
  match tokens.foldlM Progress.step (.before []) with
  | some (.behind value []) => .ok value
  | some _ => .error .ending
  | none => .error .form

/-- The value that a text writes. -/
def read (text : String) : Except Error Json := do
  ofTokens (← tokenize text.toList)

end KeyChord.Json
