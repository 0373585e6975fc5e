import KeyChord.Number.Reader

/-!
# Numerals

A numeral is a number as a JSON text writes it. Its value is computed from the digits that fit into
a word of 64 bits: further digits of the whole part count by their number only, and further digits
of the fraction do not count. The power of ten is a single factor, or divisions by one factor after
another; each result is rounded.
-/

namespace KeyChord.Json

/-- A number as it is written. -/
structure Numeral where
  /-- Whether a minus sign stands in front. -/
  negative : Bool := false
  /-- The digits in front of the point. -/
  whole : List Char
  /-- The digits behind the point, if there is one. -/
  fraction : Option (List Char) := none
  /-- The power of ten that is written behind the digits, if there is one. -/
  exponent : Option Int := none
  deriving DecidableEq, Repr

namespace Numeral

/-- The numeral of a natural number. -/
def ofNat (n : Nat) : Numeral :=
  { whole := Nat.toDigits 10 n }

/-- The digits as far as they fit into a word, after those of `n`, and the digits that do not. -/
def takeDigits (n : Nat) : List Char → Nat × List Char
  | [] => (n, [])
  | c :: rest =>
    let next := 10 * n + Number.digitValue c
    if next < UInt64.size then takeDigits next rest else (n, c :: rest)

/-- The rank of a natural number. -/
def rankOfNat (n : Nat) : Nat :=
  Number.nearestRank (n * Number.twoTo 1074) 1

/-- The rank of a product. -/
def mulRank (rank factor : Nat) : Nat :=
  Number.nearestRank (Number.units rank * Number.units factor) (Number.twoTo 1074)

/-- The rank of a quotient. -/
def divRank (rank divisor : Nat) : Nat :=
  Number.nearestRank (Number.units rank * Number.twoTo 1074) (Number.units divisor)

/-- The greatest power of ten that is a number. -/
def maxPower : Nat := 308

/-- The rank after a division by a power of ten. -/
def divPower (rank power : Nat) : Nat :=
  if power ≤ maxPower then divRank rank (rankOfNat (Number.tenTo power))
  else if rank = 0 then 0
  else divPower (divRank rank (rankOfNat (Number.tenTo maxPower))) (power - maxPower)
termination_by power
decreasing_by simp only [maxPower] at *; omega

/-- The rank after a multiplication by a power of ten, unless there is no such number. -/
def mulPower? (rank power : Nat) : Option Nat :=
  if rank = 0 then some 0
  else if power ≤ maxPower then
    let product := mulRank rank (rankOfNat (Number.tenTo power))
    if product < Number.rankLimit then some product else none
  else none

/-- The value of a numeral, unless it is too great. -/
def value? (n : Numeral) : Option Number := do
  let fraction := n.fraction.getD []
  let (digits, beyond) := takeDigits 0 n.whole
  let (digits, ignored) := takeDigits digits fraction
  let places := fraction.length - ignored.length
  let exponent := n.exponent.getD 0 + beyond.length - places
  let rank := rankOfNat digits
  let rank ← if 0 ≤ exponent then mulPower? rank exponent.toNat
    else some (divPower rank (-exponent).toNat)
  some (.ofRank n.negative rank)

/-- The natural number that a numeral writes without a sign, a point and an exponent. -/
def toNat? (n : Numeral) : Option Nat :=
  if n.negative || n.fraction.isSome || n.exponent.isSome then none
  else some (Number.digitsValue n.whole)

/-- The text of a numeral. -/
def text (n : Numeral) : String :=
  (if n.negative then "-" else "") ++ String.ofList n.whole ++
    n.fraction.elim "" (fun digits => String.ofList ('.' :: digits)) ++
    n.exponent.elim "" (fun exponent => "e" ++ toString exponent)

end Numeral

end KeyChord.Json
