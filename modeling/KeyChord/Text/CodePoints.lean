/-!
# Sets of code points

A property of characters is given as a table of the code points that have it.
-/

namespace KeyChord.Text

/-- A set of code points, as inclusive ranges. -/
structure CodePoints where
  /-- The first and the last code point of each range. -/
  ranges : List (Nat × Nat)

/-- Whether the character lies in one of the ranges. -/
def CodePoints.contains (set : CodePoints) (c : Char) : Bool :=
  set.ranges.any fun range => range.1 ≤ c.toNat && c.toNat ≤ range.2

end KeyChord.Text
