import KeyChord.Text.CodePoints

/-!
# Blanks

The Unicode property `White_Space`, and what is cut by it: the blanks around a text, and the words
of a text.
-/

namespace KeyChord.Text

/-- The characters with the property `White_Space`. -/
def blankTable : CodePoints := ⟨[
  (0x0009, 0x000D), (0x0020, 0x0020), (0x0085, 0x0085), (0x00A0, 0x00A0), (0x1680, 0x1680),
  (0x2000, 0x200A), (0x2028, 0x2029), (0x202F, 0x202F), (0x205F, 0x205F), (0x3000, 0x3000)]⟩

/-- A character that separates words. -/
def isBlank (c : Char) : Bool :=
  blankTable.contains c

/-- The characters without the blanks at both ends. -/
def trimChars (cs : List Char) : List Char :=
  ((cs.dropWhile isBlank).reverse.dropWhile isBlank).reverse

/-- The text without the blanks at both ends. -/
def trim (s : String) : String :=
  String.ofList (trimChars s.toList)

/-- A text of blanks only. -/
def isBlankText (s : String) : Bool :=
  s.toList.all isBlank

/-- The non-empty stretches between the characters that separate. -/
def pieces (separates : Char → Bool) (s : String) : List String :=
  ((s.toList.splitOnP separates).filter (!·.isEmpty)).map String.ofList

/-- The words of a text, in order. -/
def words (s : String) : List String :=
  pieces isBlank s

end KeyChord.Text
