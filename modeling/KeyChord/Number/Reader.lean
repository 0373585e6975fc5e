import KeyChord.Number.Basic

/-!
# Reading a number

A number is written as an optional sign followed by digits, with a decimal point anywhere among
them or at either end, and an optional exponent. The words `inf`, `infinity` and `nan` are read in
any letter case; the sign of the last is of no account.
-/

namespace KeyChord.Number

/-- The value of a decimal digit. -/
def digitValue (c : Char) : Nat :=
  c.toNat - '0'.toNat

/-- The whole number that the digits write. -/
def digitsValue (cs : List Char) : Nat :=
  cs.foldl (fun value c => 10 * value + digitValue c) 0

/-- A sign in front, if any: whether it is a minus, and what follows. -/
def readSign : List Char → Bool × List Char
  | '-' :: rest => (true, rest)
  | '+' :: rest => (false, rest)
  | rest => (false, rest)

/-- The digits of a magnitude with their point, and what follows: the digits, how many of them
stand behind the point, and the rest. -/
def readPlaces (cs : List Char) : List Char × Nat × List Char :=
  let whole := cs.takeWhile Char.isDigit
  match cs.dropWhile Char.isDigit with
  | '.' :: rest =>
    let places := rest.takeWhile Char.isDigit
    (whole ++ places, places.length, rest.dropWhile Char.isDigit)
  | rest => (whole, 0, rest)

/-- The exponent that the rest of a number writes, which is zero if there is no rest. -/
def readExponent? : List Char → Option Int
  | [] => some 0
  | e :: rest =>
    if e = 'e' ∨ e = 'E' then
      let (negative, digits) := readSign rest
      if digits.isEmpty || !digits.all Char.isDigit then none
      else if negative then some (-(digitsValue digits : Int)) else some (digitsValue digits)
    else none

/-- The magnitude with the given digits, of which `places` stand behind the point, times a power of
ten. An exponent that takes every such magnitude out of range is as good as any greater one. -/
def ofPlaces (negative : Bool) (digits : List Char) (places : Nat) (exponent : Int) : Number :=
  let bound : Int := 400 + digits.length
  ofDecimal negative (digitsValue digits) (max (-bound) (min bound exponent) - places)

/-- A magnitude written with digits. -/
def readMagnitude? (negative : Bool) (cs : List Char) : Option Number :=
  let (digits, places, rest) := readPlaces cs
  if digits.isEmpty then none
  else (readExponent? rest).map (ofPlaces negative digits places)

/-- A magnitude written as a word. -/
def readWord? (negative : Bool) (cs : List Char) : Option Number :=
  let word := cs.map Char.toLower
  if word = ['n', 'a', 'n'] then some .nan
  else if word = ['i', 'n', 'f'] ∨ word = ['i', 'n', 'f', 'i', 'n', 'i', 't', 'y'] then
    some (.infinite negative)
  else none

/-- The number that the characters write, all of them. -/
def read? (cs : List Char) : Option Number :=
  let (negative, magnitude) := readSign cs
  (readWord? negative magnitude).or (readMagnitude? negative magnitude)

end KeyChord.Number
