/-!
# Numbers

The numbers that context values and when-clause literals hold: those of the binary64 format, with
their two zeros, two infinities and a single value that is not a number.

A finite number is a sign and a rank. Rank `k` is the `k`-th magnitude of the format counted upward
from zero, so that neighbouring ranks are neighbouring numbers and every rank below
`Number.rankLimit` is a number. Magnitudes are measured in units of `2 ^ (-1074)`, the least
positive one; in these units they are whole.
-/

namespace KeyChord

namespace Number

/-- A power of two. -/
def twoTo (exponent : Nat) : Nat := Nat.pow 2 exponent

/-- A power of ten. -/
def tenTo (exponent : Nat) : Nat := Nat.pow 10 exponent

/-- The number of finite magnitudes: 2047 binades of `2 ^ 52` each. -/
def rankLimit : Nat := 2047 * twoTo 52

/-- The magnitude of a rank, in units of `2 ^ (-1074)`. The first two binades are spaced by one
unit; each further binade doubles the spacing. -/
def units (rank : Nat) : Nat :=
  if rank < twoTo 53 then rank
  else (twoTo 52 + rank % twoTo 52) * twoTo (rank / twoTo 52 - 1)

/-- The quotient rounded to the nearest whole number, a half to the even neighbour. -/
def roundedDiv (num den : Nat) : Nat :=
  let quotient := num / den
  let rest := 2 * (num % den)
  if rest < den then quotient
  else if den < rest then quotient + 1
  else quotient + quotient % 2

/-- The rank nearest to `num / den` units, a half to the even rank. It may lie beyond the limit. -/
def nearestRank (num den : Nat) : Nat :=
  -- The subnormal magnitudes and the first normal binade share the spacing of binade zero.
  let binade := (num / den).log2 - 52
  binade * twoTo 52 + roundedDiv num (den * twoTo binade)

end Number

/-- A number of the binary64 format. -/
inductive Number where
  /-- Not a number. -/
  | nan
  /-- An infinity. -/
  | infinite (negative : Bool)
  /-- The finite number of a sign and a rank. -/
  | finite (negative : Bool) (rank : Fin Number.rankLimit)
  deriving DecidableEq, Repr

namespace Number

/-- Zero without a sign. -/
def zero : Number := .finite false ⟨0, by decide⟩

/-- The number of a sign and a rank; a rank beyond the limit is infinite. -/
def ofRank (negative : Bool) (rank : Nat) : Number :=
  if h : rank < rankLimit then .finite negative ⟨rank, h⟩ else .infinite negative

/-- The number nearest to `num / den` units. -/
def ofUnits (negative : Bool) (num den : Nat) : Number :=
  ofRank negative (nearestRank num den)

/-- The number nearest to `digits * 10 ^ exponent`. -/
def ofDecimal (negative : Bool) (digits : Nat) (exponent : Int) : Number :=
  ofUnits negative (digits * tenTo exponent.toNat * twoTo 1074) (tenTo (-exponent).toNat)

/-- Equality of values: the zeros are equal, and what is not a number equals nothing. -/
def equals : Number → Number → Bool
  | .infinite m, .infinite n => m == n
  | .finite m i, .finite n j => i == j && (m == n || i.val == 0)
  | _, _ => false

/-- Neither zero nor undefined. -/
def isTruthy : Number → Bool
  | .nan => false
  | .infinite _ => true
  | .finite _ rank => rank.val != 0

/-- A number equals itself exactly if it is a number. -/
theorem equals_self_iff (x : Number) : x.equals x = true ↔ x ≠ .nan := by
  cases x <;> simp [equals]

/-- Equality of values does not depend on the order. -/
theorem equals_comm (x y : Number) : x.equals y = y.equals x := by
  cases x <;> cases y <;> simp only [equals]
  · exact Bool.beq_comm
  · grind

end Number

end KeyChord
