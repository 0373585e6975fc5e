import KeyChord.Number.Basic

/-!
# The text of a number

A finite number is written with the fewest decimal digits that read back as the same number, and of
those the nearest to it; of two that are equally near, the greater. The digits are always written
out by position, without an exponent, and a whole number has no decimal point.
-/

namespace KeyChord.Number

/-- The decimal number `digits * 10 ^ exponent`. -/
structure Digits where
  /-- The digits, read as a whole number. -/
  digits : Nat
  /-- The power of ten that multiplies them. -/
  exponent : Int
  deriving DecidableEq, Repr

namespace Digits

/-- Whether the digits read back as the rank. -/
def readsAs (d : Digits) (rank : Nat) : Bool :=
  ofDecimal false d.digits d.exponent == ofRank false rank

/-- The digits of a rank written out in full: one unit is `5 ^ 1074 * 10 ^ (-1074)`. -/
def exact (rank : Nat) : Digits :=
  ⟨units rank * Nat.pow 5 1074, -1074⟩

/-- The digits that remain when the last `dropped` ones are cut off. -/
def cut (d : Digits) (dropped : Nat) : Digits :=
  ⟨d.digits / tenTo dropped, d.exponent + dropped⟩

/-- Of the two decimals around `d` that lack its last `dropped` digits, one that reads back as the
rank: the nearer, or the upper if they are equally near. -/
def neighbour? (d : Digits) (rank dropped : Nat) : Option Digits :=
  let below := d.cut dropped
  let above : Digits := ⟨below.digits + 1, below.exponent⟩
  let preferred :=
    if 2 * (d.digits % tenTo dropped) < tenTo dropped then [below, above] else [above, below]
  preferred.find? (·.readsAs rank)

/-- The fewest digits that read back as the rank. Seventeen always suffice. -/
def nearest (rank : Nat) : Digits :=
  let full := exact rank
  -- Keep one digit, then two, and so on, until what is kept reads back.
  let count := (toString full.digits).length
  ((List.range 17).findSome? fun kept => full.neighbour? rank (count - (kept + 1))).getD full

/-- The same value without zeros at the end of the digits. -/
def trimmed (d : Digits) : Digits :=
  if h : d.digits ≠ 0 ∧ d.digits % 10 = 0 then trimmed ⟨d.digits / 10, d.exponent + 1⟩ else d
termination_by d.digits
decreasing_by exact Nat.div_lt_self (Nat.pos_of_ne_zero h.1) (by decide)

/-- The decimal, written by position. -/
def text (d : Digits) : String :=
  let digits := Nat.toDigits 10 d.digits
  let places := (-d.exponent).toNat
  if places = 0 then
    String.ofList (digits ++ List.replicate d.exponent.toNat '0')
  else
    let padded := List.replicate (places + 1 - digits.length) '0' ++ digits
    let whole := padded.length - places
    String.ofList (padded.take whole ++ '.' :: padded.drop whole)

end Digits

/-- The text of a magnitude. -/
def magnitudeText (rank : Nat) : String :=
  if rank = 0 then "0" else (Digits.nearest rank).trimmed.text

/-- The text of a number. -/
def text : Number → String
  | .nan => "NaN"
  | .infinite negative => if negative then "-inf" else "inf"
  | .finite negative rank =>
    if negative then "-" ++ magnitudeText rank else magnitudeText rank

end KeyChord.Number
