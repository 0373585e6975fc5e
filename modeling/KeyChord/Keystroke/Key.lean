import KeyChord.Number.Reader
import KeyChord.Text.Case

/-!
# Keys

A key is named by a text. Keys that type a character are named by it, letters in lower case; the
others have a name of their own, which can be written in several ways. `Key.normalize` picks one
spelling of each key.
-/

namespace KeyChord.Key

/-- The keys with a name of their own, each with the spellings that mean it, in lower case. -/
def spellings : List (String × List String) := [
  ("Enter", ["enter", "return"]),
  ("Escape", ["escape", "esc"]),
  ("Tab", ["tab"]),
  ("Space", ["space", "spacebar"]),
  ("Backspace", ["backspace", "back"]),
  ("Delete", ["delete", "del"]),
  ("ArrowUp", ["arrowup", "up"]),
  ("ArrowDown", ["arrowdown", "down"]),
  ("ArrowLeft", ["arrowleft", "left"]),
  ("ArrowRight", ["arrowright", "right"]),
  ("Home", ["home"]),
  ("End", ["end"]),
  ("PageUp", ["pageup", "pgup"]),
  ("PageDown", ["pagedown", "pgdown", "pgdn"]),
  ("Insert", ["insert", "ins"])]

/-- The number of the function key that the characters after the letter write: 1 to 24, in digits
with any number of leading zeros, perhaps after a plus sign. -/
def functionNumber? (cs : List Char) : Option Nat :=
  let digits := match cs with
    | '+' :: rest => rest
    | _ => cs
  let number := Number.digitsValue digits
  if digits.all Char.isDigit ∧ 1 ≤ number ∧ number ≤ 24 then some number else none

/-- The function key whose name consists of the letter and a number. -/
def functionKey? (letter : Char) : List Char → Option Nat
  | c :: rest => if c = letter then functionNumber? rest else none
  | [] => none

/-- The spelling by which a key is known: a letter in lower case, a named key by its name, a
function key by its number, and any other key as it is. -/
def normalize (raw : String) : String :=
  match raw.toList with
  | [' '] => "Space"
  | [c] => String.singleton c.toLower
  | _ =>
    let lower := Text.asciiLower raw
    match spellings.find? (·.2.contains lower) with
    | some (name, _) => name
    | none =>
      match functionKey? 'f' lower.toList with
      | some number => "F" ++ toString number
      | none => raw

/-- Whether the text is the name of a key with a name of its own. -/
def isNamed (key : String) : Bool :=
  spellings.any (·.1 == key) || (functionKey? 'F' key.toList).isSome

/-- How a key is shown: arrows and the common control keys by a sign, a character in upper case,
and any other key by its name. -/
def label (key : String) : String :=
  match key with
  | "ArrowUp" => "↑"
  | "ArrowDown" => "↓"
  | "ArrowLeft" => "←"
  | "ArrowRight" => "→"
  | "Enter" => "↵"
  | "Escape" => "⎋"
  | "Tab" => "⇥"
  | "Space" => "␣"
  | _ =>
    match key.toList with
    | [c] => String.ofList (Text.upper c)
    | _ => key

end KeyChord.Key
