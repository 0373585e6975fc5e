import KeyChord.Yaml.Error

/-!
# Walking through a YAML text

A cursor is a place in a text: the characters from there on, and where the place is. Line breaks are
carriage return, line feed, both together, and three breaks outside ASCII; when a line break is part
of a scalar the first four are all read as a line feed.
-/

namespace KeyChord.Yaml

/-- A character that a YAML text may contain. -/
def isAllowed (c : Char) : Bool :=
  let code := c.toNat
  code == 0x09 || code == 0x0A || code == 0x0D || (0x20 ≤ code && code ≤ 0x7E) || code == 0x85 ||
    (0xA0 ≤ code && code ≤ 0xD7FF) || (0xE000 ≤ code && code ≤ 0xFFFD) || 0x10000 ≤ code

/-- The byte order mark. -/
def byteOrderMark : Char := '\uFEFF'

/-- A line break, or one half of one. -/
def isBreak (c : Char) : Bool :=
  c == '\n' || c == '\r' || c == '\x85' || c == '\u2028' || c == '\u2029'

/-- A space or a tab. -/
def isSpace (c : Char) : Bool :=
  c == ' ' || c == '\t'

/-- A space, a tab or a line break. -/
def isSeparator (c : Char) : Bool :=
  isSpace c || isBreak c

/-- A character of a name: an ASCII letter or digit, the underscore or the hyphen. -/
def isNameChar (c : Char) : Bool :=
  c.isAlphanum || c == '_' || c == '-'

/-- A place in a text. -/
structure Cursor where
  /-- The characters from here on. -/
  rest : List Char
  /-- The number of lines before this one. -/
  line : Nat := 0
  /-- The number of characters before this one on its line. -/
  column : Nat := 0
  /-- The number of bytes before this one in the UTF-8 form of the text. -/
  index : Nat := 0
  deriving DecidableEq

namespace Cursor

/-- The character here. -/
def head? (c : Cursor) : Option Char :=
  c.rest.head?

/-- Whether the text ends here. -/
def atEnd (c : Cursor) : Bool :=
  c.rest.isEmpty

/-- Whether the given character stands here. -/
def at? (c : Cursor) (char : Char) : Bool :=
  c.rest.head? == some char

/-- Whether a separator stands `offset` characters further on, or the text has ended there. -/
def separatorAt (c : Cursor) (offset : Nat) : Bool :=
  (c.rest[offset]?).all isSeparator

/-- Whether a line break stands here, or the text ends. -/
def atLineEnd (c : Cursor) : Bool :=
  c.rest.head?.all isBreak

/-- The number of bytes of some characters in UTF-8. -/
def byteCount (cs : List Char) : Nat :=
  cs.foldl (fun count c => count + c.utf8Size) 0

/-- The place `count` characters further on, on the same line. -/
def skip (c : Cursor) (count : Nat) : Cursor :=
  { c with
    rest := c.rest.drop count
    column := c.column + count
    index := c.index + byteCount (c.rest.take count) }

/-- The place where the characters from here on no longer satisfy the condition, on the same
line. -/
def skipWhile (c : Cursor) (p : Char → Bool) : Cursor :=
  c.skip (c.rest.takeWhile p).length

/-- The line break that stands here, as a scalar reads it, and the place after it; the same place if
there is none. -/
def takeBreak (c : Cursor) : List Char × Cursor :=
  let next (rest : List Char) (count : Nat) : Cursor :=
    { rest, line := c.line + 1, column := 0, index := c.index + byteCount (c.rest.take count) }
  match c.rest with
  | '\r' :: '\n' :: rest => (['\n'], next rest 2)
  | char :: rest =>
    if char = '\n' ∨ char = '\r' ∨ char = '\x85' then (['\n'], next rest 1)
    else if isBreak char then ([char], next rest 1)
    else ([], c)
  | [] => ([], c)

/-- The place after the line break that stands here, if any. -/
def skipBreak (c : Cursor) : Cursor :=
  c.takeBreak.2

/-- Whether three equal characters that mark the start or the end of a document stand here. -/
def atMarker (c : Cursor) (char : Char) : Bool :=
  c.column == 0 && c.rest.take 3 == [char, char, char] && c.separatorAt 3

/-- Whether a document starts or ends here. -/
def atDocumentMarker (c : Cursor) : Bool :=
  c.atMarker '-' || c.atMarker '.'

/-- The place after the spaces and the comment that end a line, and after its break. -/
def skipLineEnd (c : Cursor) : Except Error Cursor :=
  let c := c.skipWhile isSpace
  let c := if c.at? '#' then c.skipWhile (!isBreak ·) else c
  if c.atLineEnd then .ok c.skipBreak else .error .lineEnd

theorem length_skip (c : Cursor) (count : Nat) :
    (c.skip count).rest.length = c.rest.length - count := by
  simp [skip]

theorem length_takeBreak_le (c : Cursor) : c.takeBreak.2.rest.length ≤ c.rest.length := by
  unfold takeBreak
  grind

end Cursor

end KeyChord.Yaml
