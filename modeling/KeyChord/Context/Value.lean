import KeyChord.Number.Printer
import KeyChord.Number.Reader
import KeyChord.Text.Blank

/-!
# Context values

What an application says about itself under one context key: a truth value, a number or a text.
-/

namespace KeyChord

/-- The value of a context key. -/
inductive Value where
  /-- A truth value. -/
  | bool (b : Bool)
  /-- A number. -/
  | number (n : Number)
  /-- A text. -/
  | string (s : String)
  deriving DecidableEq, Repr

namespace Value

/-- Whether a value counts as true on its own: `true`, a number that is neither zero nor undefined,
and a text that is not empty. -/
def isTruthy : Value → Bool
  | .bool b => b
  | .number n => n.isTruthy
  | .string s => s != ""

/-- The characters between matching quotes, or all of them if there are no such quotes. -/
def unquoted : List Char → List Char
  | [] => []
  | c :: rest =>
    if (c = '\'' ∨ c = '"') ∧ rest.getLast? = some c then rest.dropLast else c :: rest

/-- The value that a text writes: a truth value, else a number, else the text itself, without the
quotes around it. Blanks around the text do not count. -/
def read (text : String) : Value :=
  match Text.trimChars text.toList with
  | ['t', 'r', 'u', 'e'] => .bool true
  | ['f', 'a', 'l', 's', 'e'] => .bool false
  | cs =>
    match Number.read? cs with
    | some n => .number n
    | none => .string (String.ofList (unquoted cs))

/-- The text of a value; a text stands between single quotes as it is. -/
def text : Value → String
  | .bool b => if b then "true" else "false"
  | .number n => n.text
  | .string s => "'" ++ s ++ "'"

end Value

end KeyChord
