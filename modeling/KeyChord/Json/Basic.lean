import KeyChord.Json.Numeral

/-!
# JSON values

Values as JSON texts write them. An object keeps all of its members in order, also those of one
name.
-/

namespace KeyChord

/-- A JSON value. -/
inductive Json where
  /-- Nothing. -/
  | null
  /-- A truth value. -/
  | bool (b : Bool)
  /-- A number. -/
  | number (n : Json.Numeral)
  /-- A text. -/
  | string (s : String)
  /-- Some values in order. -/
  | array (items : List Json)
  /-- Some values by name. -/
  | object (members : List (String × Json))

namespace Json

/-- A natural number. -/
def ofNat (n : Nat) : Json :=
  .number (.ofNat n)

/-- A text or nothing. -/
def ofText? (s : Option String) : Json :=
  s.elim .null .string

/-- The last member of a name. -/
def member? (json : Json) (name : String) : Option Json :=
  match json with
  | object members => members.reverse.lookup name
  | _ => none

end Json

end KeyChord
