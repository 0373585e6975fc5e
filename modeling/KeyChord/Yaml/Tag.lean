import KeyChord.Text.Hex
import KeyChord.Yaml.Cursor

/-!
# Names, tags and directives

The words of a YAML document that are not scalars: the names of anchors, the tags of nodes, and the
directives in front of a document.
-/

namespace KeyChord.Yaml

/-- A tag, or a part of one, in bytes. Escapes can write bytes that are no text in UTF-8. -/
abbrev TagBytes := List UInt8

/-- The bytes of a text. -/
def TagBytes.ofText (text : String) : TagBytes :=
  text.toUTF8.data.toList

/-- What counts of the bytes that are written for a tag: a zero byte ends it. -/
def TagBytes.untilZero (bytes : TagBytes) : TagBytes :=
  bytes.takeWhile (· ≠ 0)

/-- A tag as it is written: a handle that stands for the first part of the tag, and the rest. -/
structure TagName where
  /-- The handle, which is empty if the tag is written in full. -/
  handle : String
  /-- What follows the handle. -/
  suffix : TagBytes
  deriving DecidableEq

/-- A line in front of a document that says how to read it. -/
inductive Directive where
  /-- The version of the format. -/
  | version (major minor : Nat)
  /-- What a tag handle stands for. -/
  | tag (handle : String) (value : TagBytes)
  deriving DecidableEq

/-! ## Anchors -/

/-- A character that may follow the name of an anchor. -/
def endsAnchor (c : Char) : Bool :=
  isSeparator c || c == '?' || c == ':' || c == ',' || c == ']' || c == '}' || c == '%' ||
    c == '@' || c == Char.ofNat 0x60

/-- The name of an anchor or an alias whose sign stands here, and the place after it. -/
def readAnchor (c : Cursor) : Except Error (String × Cursor) :=
  let c := c.skip 1
  let name := c.rest.takeWhile isNameChar
  let behind := c.skip name.length
  if !name.isEmpty && behind.rest.head?.all endsAnchor then .ok (String.ofList name, behind)
  else .error .anchorName

/-! ## Tags -/

/-- A character of a tag. The brackets and the comma only count where flow collections cannot be
meant. -/
def isTagChar (flow : Bool) (c : Char) : Bool :=
  isNameChar c || ";/?:@&=+$.!~*'()".contains c ||
    (flow && (c == ',' || c == '[' || c == ']'))

/-- The byte that two hexadecimal digits after a percent sign write. -/
def percentByte? : List Char → Option UInt8
  | '%' :: high :: low :: _ => (Text.hexNumber? [high, low]).map Nat.toUInt8
  | _ => none

/-- How many bytes a character in UTF-8 takes whose first byte is given. -/
def utf8Width? (first : UInt8) : Option Nat :=
  if first < 0x80 then some 1
  else if first / 32 = 6 then some 2
  else if first / 16 = 14 then some 3
  else if first / 8 = 30 then some 4
  else none

/-- The bytes after the first of an escaped character, of which `count` are wanted. -/
def percentTail? (count : Nat) (cs : List Char) : Option TagBytes :=
  match count with
  | 0 => some []
  | count + 1 => do
    let byte ← percentByte? cs
    if byte / 64 = 2 then (percentTail? count (cs.drop 3)).map (byte :: ·) else none

/-- The bytes that percent escapes write for one character. They are as many as the first of them
tells, but they need not mean a character. -/
def percentBytes? (cs : List Char) : Option TagBytes := do
  let first ← percentByte? cs
  let width ← utf8Width? first
  return first :: (← percentTail? (width - 1) (cs.drop 3))

/-- The bytes of a tag from here on, escapes resolved, and the place after them. -/
def readTagBytes (flow : Bool) (c : Cursor) : Except Error (TagBytes × Cursor) :=
  match _h : c.rest with
  | [] => .ok ([], c)
  | char :: _ =>
    if char == '%' then
      match percentBytes? c.rest with
      | some bytes =>
        -- Each byte takes three characters, of which the first is at hand.
        (readTagBytes flow (c.skip (1 + (3 * bytes.length - 1)))).map fun (more, c) =>
          (bytes ++ more, c)
      | none => .error .tag
    else if isTagChar flow char then
      (readTagBytes flow (c.skip 1)).map fun (more, c) => (char.toNat.toUInt8 :: more, c)
    else .ok ([], c)
termination_by c.rest.length
decreasing_by all_goals grind [Cursor.length_skip]

/-- The handle that stands here: an exclamation mark, perhaps followed by a name, perhaps followed
by a second exclamation mark. -/
def readHandle (c : Cursor) : Except Error (List Char × Cursor) :=
  if c.at? '!' then
    let name := ((c.skip 1).rest.takeWhile isNameChar)
    let behind := c.skip (1 + name.length)
    if behind.at? '!' then .ok ('!' :: name ++ ['!'], behind.skip 1)
    else .ok ('!' :: name, behind)
  else .error .tag

/-- Whether a handle has both its exclamation marks. -/
def isClosedHandle (handle : List Char) : Bool :=
  1 < handle.length && handle.getLast? == some '!'

/-- The tag that stands here, without a look at what follows it. -/
def readTagName (c : Cursor) : Except Error (TagName × Cursor) :=
  if c.rest[1]? = some '<' then do
    let (bytes, c) ← readTagBytes true (c.skip 2)
    if bytes.isEmpty || !c.at? '>' then .error .tag
    else .ok (⟨"", bytes.untilZero⟩, c.skip 1)
  else do
    let (handle, c) ← readHandle c
    let (bytes, c) ← readTagBytes false c
    if isClosedHandle handle then
      if bytes.isEmpty then .error .tag
      else .ok (⟨String.ofList handle, bytes.untilZero⟩, c)
    else
      -- What looked like the start of a handle is part of the tag.
      let suffix := TagBytes.ofText (String.ofList (handle.drop 1)) ++ bytes.untilZero
      if suffix.isEmpty then .ok (⟨"", TagBytes.ofText "!"⟩, c) else .ok (⟨"!", suffix⟩, c)

/-- The tag that stands here, and the place after it. A separator must follow, or a comma in a flow
collection. -/
def readTag (inFlow : Bool) (c : Cursor) : Except Error (TagName × Cursor) := do
  let (name, c) ← readTagName c
  if c.rest.head?.all isSeparator || (inFlow && c.at? ',') then .ok (name, c) else .error .tag

/-! ## Directives -/

/-- A number of at most nine digits, and the place after it. -/
def readVersionNumber (c : Cursor) : Except Error (Nat × Cursor) :=
  let digits := c.rest.takeWhile Char.isDigit
  if digits.isEmpty || 9 < digits.length then .error .directive
  else .ok (digits.foldl (fun n d => 10 * n + (d.toNat - '0'.toNat)) 0, c.skip digits.length)

/-- The version after the word `YAML`. -/
def readVersion (c : Cursor) : Except Error (Directive × Cursor) := do
  let (major, c) ← readVersionNumber (c.skipWhile isSpace)
  if c.at? '.' then
    let (minor, c) ← readVersionNumber (c.skip 1)
    .ok (.version major minor, c)
  else .error .directive

/-- The handle and its meaning after the word `TAG`. -/
def readTagDirective (c : Cursor) : Except Error (Directive × Cursor) := do
  let (handle, c) ← readHandle (c.skipWhile isSpace)
  if !(isClosedHandle handle || handle == ['!']) || !c.rest.head?.any isSpace then
    .error .directive
  else
    let (value, c) ← readTagBytes true (c.skipWhile isSpace)
    if value.isEmpty || !c.rest.head?.all isSeparator then .error .directive
    else .ok (.tag (String.ofList handle) value.untilZero, c)

/-- The directive whose percent sign stands here, and the place after its line. -/
def readDirective (c : Cursor) : Except Error (Directive × Cursor) := do
  let c := c.skip 1
  let name := c.rest.takeWhile isNameChar
  let c := c.skip name.length
  if !c.rest.head?.all isSeparator then .error .directive
  else
    let (directive, c) ←
      if name = ['Y', 'A', 'M', 'L'] then readVersion c
      else if name = ['T', 'A', 'G'] then readTagDirective c
      else .error .directive
    .ok (directive, ← c.skipLineEnd)

end KeyChord.Yaml
