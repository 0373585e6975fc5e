import KeyChord.Yaml.Node

/-!
# Reading values from YAML documents

A reading turns a node into a value of a wanted type. Aliases are followed to their anchors, over a
whole document at most a hundred times its size.

What a scalar means is decided by the type that is wanted of it: any scalar is a text, and only some
are a truth value or a number.
-/

namespace KeyChord.Yaml

/-- A reading of a document, which counts down how many aliases it may still follow. -/
abbrev Reading := ReaderT Document (StateT Nat (Except Error))

namespace Node

/-- The node that an alias stands for; another node stands for itself. -/
def follow (node : Node) : Reading Node := do
  match node with
  | reference slot =>
    match ← get, (← read).anchored.lookup slot with
    | left + 1, some found => set left; return found
    | _, _ => throw .tooLong
  | _ => return node

/-- Whether nothing is written for the node. -/
def isBlank : Node → Bool
  | scalar _ .plain text => text == ""
  | _ => false

/-- The text of a scalar. -/
def text (node : Node) : Reading String := do
  match ← node.follow with
  | scalar _ _ text => return text
  | _ => throw (.kind "a scalar")

/-- The items of a sequence, each read in its turn. Nothing written is no items. -/
def items {α : Type} (readItem : Node → Reading α) (node : Node) : Reading (List α) := do
  let node ← node.follow
  match node with
  | sequence _ items => items.mapM readItem
  | _ => if node.isBlank then return [] else throw (.kind "a sequence")

/-- The known fields of a mapping. Other fields do not count; a known one may be given once. Nothing
written is no fields. -/
def fields (known : List String) (node : Node) : Reading (List (String × Node)) := do
  let node ← node.follow
  match node with
  | mapping _ pairs =>
    let pairs ← pairs.mapM fun (key, value) => return (← key.text, value)
    let found := pairs.filter (known.contains ·.1)
    match known.find? fun name => 1 < (found.map (·.1)).count name with
    | some name => throw (.repeatedField name)
    | none => return found
  | _ => if node.isBlank then return [] else throw (.kind "a mapping")

/-! ## Scalars -/

/-- The tag of nothing. -/
def nullTag : TagBytes := .ofText "tag:yaml.org,2002:null"

/-- The tag of truth values. -/
def boolTag : TagBytes := .ofText "tag:yaml.org,2002:bool"

/-- The tag of whole numbers. -/
def intTag : TagBytes := .ofText "tag:yaml.org,2002:int"

/-- Whether the text writes nothing. -/
def isNull (text : String) : Bool :=
  ["null", "Null", "NULL", "~"].contains text

/-- The truth value that a text writes. -/
def bool? (text : String) : Option Bool :=
  if ["true", "True", "TRUE"].contains text then some true
  else if ["false", "False", "FALSE"].contains text then some false
  else none

/-- The number that digits write in a base, if there is a digit and no other character. -/
def digits? (base : Nat) (cs : List Char) : Option Nat :=
  if cs.isEmpty then none
  else cs.foldlM (fun number c => do
    let digit ← Text.hexValue? c
    if digit < base then some (base * number + digit) else none) 0

/-- The base that the start of a number announces, and what remains. -/
def base? : List Char → Option (Nat × List Char)
  | '0' :: 'x' :: rest => some (16, rest)
  | '0' :: 'o' :: rest => some (8, rest)
  | '0' :: 'b' :: rest => some (2, rest)
  | _ => none

/-- The natural number below 2⁶⁴ that a text writes: in decimal digits without leading zeros, or
after `0x`, `0o` or `0b` in the digits of that base. A plus sign may stand in front. -/
def uint64? (text : String) : Option UInt64 := do
  let cs := match text.toList with
    | '+' :: rest => rest
    | cs => cs
  let number ← match base? cs with
    | some (base, rest) => digits? base rest
    | none => if 1 < cs.length ∧ cs.head? = some '0' then none else digits? 10 cs
  if h : number < UInt64.size then some (UInt64.ofNatLT number h) else none

/-- A scalar whose text writes a value. Quotes make a scalar a text, and so does a block unless its
tag is the given one. -/
def literal {α : Type} (wanted : String) (tag : TagBytes) (value? : String → Option α)
    (node : Node) : Reading α := do
  match ← node.follow with
  | scalar found style text =>
    let counts := style == Style.plain || (style == Style.literal && found == some tag)
    match if counts then value? text else none with
    | some value => return value
    | none => throw (.scalar wanted text)
  | _ => throw (.kind wanted)

/-- A truth value. -/
def bool : Node → Reading Bool :=
  literal "a truth value" boolTag bool?

/-- A natural number. -/
def uint64 : Node → Reading UInt64 :=
  literal "a natural number" intTag uint64?

/-- A value or nothing. Nothing is a plain scalar without text or with one that writes nothing; with
the tag of nothing it has to be written out, and with another tag it is no longer nothing. -/
def optional {α : Type} (readValue : Node → Reading α) (node : Node) : Reading (Option α) := do
  let node ← node.follow
  match node with
  | scalar none .plain text =>
    if text == "" || isNull text then return none else some <$> readValue node
  | scalar (some tag) .plain text =>
    if tag != nullTag then some <$> readValue node
    else if isNull text then return none
    else throw (.scalar "nothing" text)
  | _ => some <$> readValue node

/-- What a local tag names: the text that follows its exclamation mark, or the mark alone. -/
def localName? (tag : Option TagBytes) : Option String := do
  let start ← (← tag).head?
  let name := (← tag).tail
  if start ≠ '!'.toUInt8 then none
  else if name.isEmpty then some "!"
  else String.fromUTF8? (ByteArray.mk name.toArray)

/-- One of some words: as the text of a scalar, or as the local tag of one that writes nothing. -/
def word {α : Type} (wanted : String) (ofWord? : String → Option α) (node : Node) :
    Reading α := do
  match ← node.follow with
  | scalar tag style text =>
    let isNothing := style == Style.plain && (text == "" || isNull text)
    let found := match localName? tag with
      | some name => if isNothing then some name else none
      | none => some text
    match found.bind ofWord? with
    | some value => return value
    | none => throw (Error.scalar wanted text)
  | _ => throw (Error.kind wanted)

end Node

/-! ## Fields of a mapping -/

/-- A field that has to be given. -/
def requiredField {α : Type} (fields : List (String × Node)) (name : String)
    (readValue : Node → Reading α) : Reading α :=
  match fields.lookup name with
  | some node => readValue node
  | none => throw (.missingField name)

/-- A field that may be left out, for which there is another value then. -/
def fieldOr {α : Type} (fields : List (String × Node)) (name : String) (other : α)
    (readValue : Node → Reading α) : Reading α :=
  match fields.lookup name with
  | some node => readValue node
  | none => return other

/-- What a text describes, by a reading of the node at the top of its document. -/
def decode {α : Type} (readRoot : Node → Reading α) (text : String) : Except Error α := do
  let document ← Document.read text
  let root := document.root.getD (.scalar none .plain "")
  return (← (readRoot root).run document |>.run (100 * document.size)).1

end KeyChord.Yaml
