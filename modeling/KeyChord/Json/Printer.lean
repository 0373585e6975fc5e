import KeyChord.Json.Basic

/-!
# Printing JSON

Texts are quoted with the short escapes where there are some, and control characters are escaped by
number. A value is printed on one line, or with each item and member on a line of its own, indented
by two spaces for each level.
-/

namespace KeyChord.Json

/-- A number below 256 in two hexadecimal digits. -/
def twoDigits (n : Nat) : List Char :=
  let digits := Nat.toDigits 16 n
  List.replicate (2 - digits.length) '0' ++ digits

/-- How a character is written in a text. -/
def escapeChar (c : Char) : List Char :=
  match c with
  | '"' => ['\\', '"']
  | '\\' => ['\\', '\\']
  | '\x08' => ['\\', 'b']
  | '\x0C' => ['\\', 'f']
  | '\n' => ['\\', 'n']
  | '\r' => ['\\', 'r']
  | '\t' => ['\\', 't']
  | _ => if c.toNat < 0x20 then ['\\', 'u', '0', '0'] ++ twoDigits c.toNat else [c]

/-- A text in quotes. -/
def quote (s : String) : String :=
  String.ofList ('"' :: s.toList.flatMap escapeChar ++ ['"'])

/-- A value without parts. -/
def printScalar : Json → String
  | null => "null"
  | bool b => if b then "true" else "false"
  | number n => n.text
  | string s => quote s
  | array _ => "[]"
  | object _ => "\x7b\x7d"

mutual

/-- The value on one line. -/
def compact : Json → String
  | array items => "[" ++ ",".intercalate (compactItems items) ++ "]"
  | object members => "\x7b" ++ ",".intercalate (compactMembers members) ++ "\x7d"
  | value => printScalar value

/-- Each item on one line. -/
def compactItems : List Json → List String
  | [] => []
  | item :: rest => item.compact :: compactItems rest

/-- Each member on one line. -/
def compactMembers : List (String × Json) → List String
  | [] => []
  | (name, value) :: rest => (quote name ++ ":" ++ value.compact) :: compactMembers rest

end

/-- The start of a line at a level. -/
def lineStart (level : Nat) : String :=
  String.ofList ('\n' :: List.replicate (2 * level) ' ')

/-- Parts on lines of their own, inside brackets of a level. -/
def enclose (level : Nat) (opening : String) (parts : List String) (closing : String) : String :=
  let start := lineStart (level + 1)
  opening ++ start ++ ("," ++ start).intercalate parts ++ lineStart level ++ closing

mutual

/-- The value on lines of its own, of which the first belongs to a level. -/
def prettyAt (level : Nat) : Json → String
  | array (item :: rest) =>
    enclose level "[" (item.prettyAt (level + 1) :: prettyItems (level + 1) rest) "]"
  | object ((name, value) :: rest) =>
    enclose level "\x7b"
      ((quote name ++ ": " ++ value.prettyAt (level + 1)) :: prettyMembers (level + 1) rest) "\x7d"
  | value => printScalar value

/-- Items on lines of their own. -/
def prettyItems (level : Nat) : List Json → List String
  | [] => []
  | item :: rest => item.prettyAt level :: prettyItems level rest

/-- Members on lines of their own. -/
def prettyMembers (level : Nat) : List (String × Json) → List String
  | [] => []
  | (name, value) :: rest =>
    (quote name ++ ": " ++ value.prettyAt level) :: prettyMembers level rest

end

/-- The value on lines of its own. -/
def pretty (json : Json) : String :=
  json.prettyAt 0

end KeyChord.Json
