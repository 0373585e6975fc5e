import KeyChord.Yaml.Scalar
import KeyChord.Yaml.Tag

/-!
# Tokens of YAML documents

A text is cut into tokens: scalars, the signs around and between them, and marks for the start and
the end of each collection that is written by indentation alone.

That a scalar is the key of a mapping shows only when a colon follows it. So the lexer remembers,
for each level of flow collections, the place of the last token that could be a key; the colon puts
the marks in front of it. Such a key has to stay on one line and within 1024 bytes of UTF-8. Where
indentation promises a key, its colon is required.
-/

namespace KeyChord.Yaml

/-- A token of a YAML document. -/
inductive Token where
  /-- A line in front of a document. -/
  | directive (directive : Directive)
  /-- The start of a document. -/
  | documentStart
  /-- The end of a document. -/
  | documentEnd
  /-- The start of a sequence by indentation. -/
  | blockSequence
  /-- The start of a mapping by indentation. -/
  | blockMapping
  /-- The end of a collection by indentation. -/
  | blockEnd
  /-- An opening bracket. -/
  | flowSequence
  /-- A closing bracket. -/
  | flowSequenceEnd
  /-- An opening brace. -/
  | flowMapping
  /-- A closing brace. -/
  | flowMappingEnd
  /-- The hyphen of a sequence entry. -/
  | entry
  /-- The comma between the entries of a flow collection. -/
  | comma
  /-- The start of a mapping key. -/
  | key
  /-- The colon in front of a mapping value. -/
  | value
  /-- A reference to an anchor. -/
  | reference (name : String)
  /-- A name for the node that follows. -/
  | anchor (name : String)
  /-- The tag of the node that follows. -/
  | tag (name : TagName)
  /-- A scalar. -/
  | scalar (style : Style) (text : String)
  deriving DecidableEq

/-- A token that is a mapping key if a colon follows. -/
structure KeyCandidate where
  /-- Whether the colon has to follow. -/
  required : Bool
  /-- The number of tokens before it. -/
  token : Nat
  /-- Where it starts. -/
  place : Cursor

/-- What the lexer knows at a place of the text. -/
structure Lexer where
  /-- The place. -/
  place : Cursor
  /-- The tokens so far. -/
  tokens : Array Token := #[]
  /-- The columns of the open block collections, the innermost first. -/
  indents : List Nat := []
  /-- Whether a mapping key may start here. -/
  keyAllowed : Bool := true
  /-- The last token of the current flow level that may be a key. -/
  candidate : Option KeyCandidate := none
  /-- The same for each enclosing flow level, the innermost first. -/
  enclosing : List (Option KeyCandidate) := []

namespace Lexer

/-- Whether the place is inside a flow collection. -/
def inFlow (l : Lexer) : Bool :=
  !l.enclosing.isEmpty

/-- The least column of the further lines of a scalar that starts here. -/
def scalarIndent (l : Lexer) : Nat :=
  l.indents.head?.elim 0 (· + 1)

/-- Adds a token. -/
def emit (l : Lexer) (token : Token) : Lexer :=
  { l with tokens := l.tokens.push token }

/-- Whether a candidate can no longer be a key at the place. -/
def isStale (candidate : KeyCandidate) (c : Cursor) : Bool :=
  candidate.place.line < c.line || candidate.place.index + 1024 < c.index

/-- Forgets a candidate that can no longer be a key. -/
def refresh (c : Cursor) (candidate : Option KeyCandidate) : Except Error (Option KeyCandidate) :=
  match candidate with
  | none => .ok none
  | some found =>
    if !isStale found c then .ok candidate
    else if found.required then .error .missingColon
    else .ok none

/-- Forgets the candidates that can no longer be keys. -/
def refreshAll (l : Lexer) : Except Error Lexer := do
  let enclosing ← l.enclosing.mapM (refresh l.place)
  let candidate ← refresh l.place l.candidate
  return { l with candidate, enclosing }

/-- Forgets the candidate of the current flow level, because no colon can follow it. -/
def dropCandidate (l : Lexer) : Except Error Lexer :=
  if l.candidate.any (·.required) then .error .missingColon
  else .ok { l with candidate := none }

/-- Remembers the token that starts here as a possible key. -/
def saveCandidate (l : Lexer) : Except Error Lexer :=
  if l.keyAllowed then do
    let l ← l.dropCandidate
    let required := !l.inFlow && l.indents.head? == some l.place.column
    return { l with candidate := some ⟨required, l.tokens.size, l.place⟩ }
  else .ok l

/-- Opens a block collection at the column, unless one is open there or further right. Its mark
becomes the token number `position`. -/
def openBlock (l : Lexer) (column : Nat) (mark : Token) (position : Nat) : Lexer :=
  if !l.inFlow && l.indents.head?.all (· < column) then
    { l with
      indents := column :: l.indents
      tokens := l.tokens.insertIdxIfInBounds position mark }
  else l

/-- Closes the block collections that do not satisfy the condition on their column, the innermost
first, up to the first that does. -/
def closeBlocks (l : Lexer) (stays : Nat → Bool) : Lexer :=
  if l.inFlow then l
  else
    let closed := l.indents.takeWhile (!stays ·)
    { l with
      indents := l.indents.drop closed.length
      tokens := l.tokens ++ Array.replicate closed.length Token.blockEnd }

/-- The place after the blanks and the comment that stand here. A tab is no blank where a key may
start. A byte order mark at the start of a line is passed over, but it counts as a character of its
line. -/
def skipBlanks (c : Cursor) (inFlow keyAllowed : Bool) : Cursor :=
  let c := if c.column == 0 && c.at? byteOrderMark then c.skip 1 else c
  let c := c.skipWhile fun char => char == ' ' || ((inFlow || !keyAllowed) && char == '\t')
  if c.at? '#' then c.skipWhile (!isBreak ·) else c

theorem length_skipBlanks_le (c : Cursor) (inFlow keyAllowed : Bool) :
    (skipBlanks c inFlow keyAllowed).rest.length ≤ c.rest.length := by
  grind [skipBlanks, Cursor.skipWhile, Cursor.length_skip]

theorem length_skipBreak_lt {c : Cursor} (h : c.rest.head?.any isBreak = true) :
    c.skipBreak.rest.length < c.rest.length := by
  cases hc : c.rest with
  | nil => simp [hc] at h
  | cons char rest =>
    have hb : isBreak char = true := by simpa [hc] using h
    exact hc ▸ Cursor.length_takeBreak_lt hc hb

/-- The place of the next token: after blanks, comments and line breaks. A line break outside flow
collections allows a key. -/
def skipToToken (c : Cursor) (inFlow keyAllowed : Bool) : Cursor × Bool :=
  let lineEnd := skipBlanks c inFlow keyAllowed
  if _h : lineEnd.rest.head?.any isBreak then
    skipToToken lineEnd.skipBreak inFlow (keyAllowed || !inFlow)
  else (lineEnd, keyAllowed)
termination_by c.rest.length
decreasing_by
  exact Nat.lt_of_lt_of_le (length_skipBreak_lt _h) (length_skipBlanks_le c inFlow keyAllowed)

/-- Ends every open block collection, before a line that belongs to no collection. -/
def closeAll (l : Lexer) : Except Error Lexer :=
  (l.closeBlocks fun _ => false).dropCandidate

/-- A directive. -/
def lexDirective (l : Lexer) : Except Error Lexer := do
  let l ← l.closeAll
  let (directive, place) ← readDirective l.place
  return { l with place, keyAllowed := false }.emit (.directive directive)

/-- The mark of the start or the end of a document. -/
def lexMarker (l : Lexer) (token : Token) : Except Error Lexer := do
  let l ← l.closeAll
  return { l with place := l.place.skip 3, keyAllowed := false }.emit token

/-- An opening bracket or brace. -/
def lexFlowStart (l : Lexer) (token : Token) : Except Error Lexer := do
  let l ← l.saveCandidate
  return { l with
    place := l.place.skip 1
    keyAllowed := true
    candidate := none
    enclosing := l.candidate :: l.enclosing }.emit token

/-- A closing bracket or brace. -/
def lexFlowEnd (l : Lexer) (token : Token) : Except Error Lexer := do
  let l ← l.dropCandidate
  return { l with
    place := l.place.skip 1
    keyAllowed := false
    candidate := l.enclosing.head?.join
    enclosing := l.enclosing.drop 1 }.emit token

/-- A comma in a flow collection. -/
def lexComma (l : Lexer) : Except Error Lexer := do
  let l ← l.dropCandidate
  return { l with place := l.place.skip 1, keyAllowed := true }.emit .comma

/-- The hyphen of a sequence entry. -/
def lexEntry (l : Lexer) : Except Error Lexer := do
  if !l.inFlow && !l.keyAllowed then throw .entry
  let l ← (l.openBlock l.place.column .blockSequence l.tokens.size).dropCandidate
  return { l with place := l.place.skip 1, keyAllowed := true }.emit .entry

/-- The question mark in front of a mapping key. -/
def lexKey (l : Lexer) : Except Error Lexer := do
  if !l.inFlow && !l.keyAllowed then throw .entry
  let l ← (l.openBlock l.place.column .blockMapping l.tokens.size).dropCandidate
  return { l with place := l.place.skip 1, keyAllowed := !l.inFlow }.emit .key

/-- The colon in front of a mapping value. -/
def lexValue (l : Lexer) : Except Error Lexer := do
  match l.candidate with
  | some found =>
    -- The key has been read already: its mark goes in front of it, and that of a new mapping too.
    let l := { l with tokens := l.tokens.insertIdxIfInBounds found.token .key }
    let l := l.openBlock found.place.column .blockMapping found.token
    return { l with place := l.place.skip 1, keyAllowed := false, candidate := none }.emit .value
  | none =>
    -- The key stands behind a question mark, or there is none.
    if !l.inFlow && !l.keyAllowed then throw .entry
    let l := l.openBlock l.place.column .blockMapping l.tokens.size
    return { l with place := l.place.skip 1, keyAllowed := !l.inFlow }.emit .value

/-- An anchor, an alias, a tag, or a scalar that is not a block. -/
def lexNode (l : Lexer) (read : Cursor → Except Error (Token × Bool × Cursor)) :
    Except Error Lexer := do
  let l ← l.saveCandidate
  let (token, keyAllowed, place) ← read l.place
  return { l with place, keyAllowed }.emit token

/-- A block scalar. -/
def lexBlockScalar (l : Lexer) (style : Style) : Except Error Lexer := do
  let l ← l.dropCandidate
  let (text, place) ← readBlock (style == .folded) l.indents.head? l.place
  return { l with place, keyAllowed := true }.emit (.scalar style (String.ofList text))

/-- A quoted scalar. -/
def lexQuoted (l : Lexer) (style : Style) : Except Error Lexer :=
  l.lexNode fun c => (readQuoted (style == .doubleQuoted) c).map fun (text, c) =>
    (.scalar style (String.ofList text), false, c)

/-- A plain scalar. -/
def lexPlain (l : Lexer) : Except Error Lexer :=
  l.lexNode fun c => (readPlain l.inFlow l.scalarIndent c).map fun (text, broken, c) =>
    (.scalar .plain (String.ofList text), broken, c)

/-- A sign that starts no plain scalar, whatever follows it. -/
def isIndicator (c : Char) : Bool :=
  ",[]#&*!|>'\"%@".contains c || c == '\x7b' || c == '\x7d' || c == Char.ofNat 0x60

/-- The token that starts with the character at the place. -/
def lexToken (l : Lexer) (c : Char) : Except Error Lexer :=
  let atWord := !l.place.separatorAt 1
  if l.place.column == 0 && c == '%' then l.lexDirective
  else if l.place.atMarker '-' then l.lexMarker .documentStart
  else if l.place.atMarker '.' then l.lexMarker .documentEnd
  else if c == '[' then l.lexFlowStart .flowSequence
  else if c == '\x7b' then l.lexFlowStart .flowMapping
  else if c == ']' then l.lexFlowEnd .flowSequenceEnd
  else if c == '\x7d' then l.lexFlowEnd .flowMappingEnd
  else if c == ',' then l.lexComma
  else if c == '-' && !atWord then l.lexEntry
  else if c == '?' && (l.inFlow || !atWord) then l.lexKey
  else if c == ':' && (l.inFlow || !atWord) then l.lexValue
  else if c == '*' then
    l.lexNode fun c => (readAnchor c).map fun (name, c) => (.reference name, false, c)
  else if c == '&' then
    l.lexNode fun c => (readAnchor c).map fun (name, c) => (.anchor name, false, c)
  else if c == '!' then
    l.lexNode fun c => (readTag l.inFlow c).map fun (name, c) => (.tag name, false, c)
  else if c == '|' && !l.inFlow then l.lexBlockScalar .literal
  else if c == '>' && !l.inFlow then l.lexBlockScalar .folded
  else if c == '\'' then l.lexQuoted .singleQuoted
  else if c == '"' then l.lexQuoted .doubleQuoted
  else if isSeparator c || isIndicator c then .error (.tokenStart c)
  else l.lexPlain

/-- The tokens up to the end of the text, of which at most `fuel` are read. -/
def lexAll : Nat → Lexer → Except Error (Array Token)
  | 0, _ => .error .tooLong
  | fuel + 1, l => do
    let (place, keyAllowed) := skipToToken l.place l.inFlow l.keyAllowed
    let l ← { l with place, keyAllowed }.refreshAll
    -- A token further left than a block collection ends it.
    let l := l.closeBlocks (· ≤ place.column)
    match place.head? with
    | none => return (← l.closeAll).tokens
    | some c => lexAll fuel (← l.lexToken c)

end Lexer

/-- The tokens of a text. Each token takes at least one character. -/
def tokenize (text : String) : Except Error (List Token) :=
  match text.toList.find? (!isAllowed ·) with
  | some c => .error (.character c)
  | none =>
    (Lexer.lexAll (text.length + 1) { place := { rest := text.toList } }).map Array.toList

end KeyChord.Yaml
