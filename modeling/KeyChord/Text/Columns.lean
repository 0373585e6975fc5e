/-!
# Columns

Texts set in columns: a text shorter than its column is filled up with spaces on the right, and a
longer one pushes the rest of the line on. Width is counted in characters.
-/

namespace KeyChord.Text

/-- The text, filled up to the width with spaces. -/
def padRight (width : Nat) (s : String) : String :=
  s ++ String.ofList (List.replicate (width - s.length) ' ')

/-- A text is never cut. -/
theorem length_padRight (width : Nat) (s : String) :
    (padRight width s).length = max width s.length := by
  simp [padRight]
  omega

end KeyChord.Text
