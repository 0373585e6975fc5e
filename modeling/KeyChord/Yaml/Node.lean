import KeyChord.Yaml.Token

/-!
# YAML documents

A document is a tree of scalars, sequences and mappings, in which an alias stands for a node that an
anchor has named elsewhere.

An alias refers to a slot. An anchor takes the slot whose number is the number of different names
met before it, and the name stands for that slot from then on; of several nodes that take one slot
the last holds it.
-/

namespace KeyChord.Yaml

/-- A node of a document. -/
inductive Node where
  /-- A text, with its tag and the way it is written. -/
  | scalar (tag : Option TagBytes) (style : Style) (text : String)
  /-- Some nodes in order, with the tag of the whole. -/
  | sequence (tag : Option TagBytes) (items : List Node)
  /-- Some pairs of a key and a value in order, with the tag of the whole. -/
  | mapping (tag : Option TagBytes) (pairs : List (Node × Node))
  /-- The node that holds the slot. -/
  | reference (slot : Nat)

/-- A document. -/
structure Document where
  /-- The node at the top, unless the document is void. -/
  root : Option Node
  /-- The nodes that hold the slots. -/
  anchored : List (Nat × Node)
  /-- The number of scalars, aliases, and starts and ends of collections. -/
  size : Nat

/-- What remains to be read, and what has been learnt from what was read. -/
structure Builder where
  /-- The tokens that remain. -/
  tokens : List Token
  /-- What the tag handles stand for. -/
  handles : List (String × TagBytes) := []
  /-- The slots that the names of anchors stand for, the latest first. -/
  names : List (String × Nat) := []
  /-- The anchors that have taken a slot, the latest first, numbered in order. -/
  owners : List (Nat × Nat) := []
  /-- The nodes of the numbered anchors. -/
  nodes : List (Nat × Node) := []
  /-- The size so far. -/
  size : Nat := 0

/-- A reader of tokens. -/
abbrev Build := StateT Builder (Except Error)

namespace Build

/-- The next token. -/
def peek : Build (Option Token) :=
  return (← get).tokens.head?

/-- Passes the next token. -/
def advance : Build Unit :=
  modify fun b => { b with tokens := b.tokens.drop 1 }

/-- Passes the next token if it is the given one. -/
def accept (token : Token) : Build Bool := do
  if (← peek) == some token then
    advance
    return true
  else
    return false

/-- Adds to the size. -/
def grow (count : Nat) : Build Unit :=
  modify fun b => { b with size := b.size + count }

/-- A node that is left out. -/
def emptyNode (tag : Option TagBytes) : Build Node := do
  grow 1
  return .scalar tag .plain ""

/-- A node that is left out if one of the given tokens comes next. -/
def unlessNext (tokens : List Token) (node : Build Node) : Build Node := do
  if (← peek).any (tokens.contains ·) then emptyNode none else node

/-! ## Tags, anchors and aliases -/

/-- What a tag handle stands for unless a directive tells otherwise. -/
def standardHandles : List (String × TagBytes) :=
  [("!", .ofText "!"), ("!!", .ofText "tag:yaml.org,2002:")]

/-- The full form of a tag. -/
def expandTag (name : TagName) : Build TagBytes := do
  if name.handle = "" then return name.suffix
  match ((← get).handles ++ standardHandles).lookup name.handle with
  | some start => return start ++ name.suffix
  | none => throw (.tagHandle name.handle)

/-- The anchor that comes next, if any. -/
def anchor? : Build (Option String) := do
  match ← peek with
  | some (.anchor name) => advance; return some name
  | _ => return none

/-- The tag that comes next, if any. -/
def tag? : Build (Option TagName) := do
  match ← peek with
  | some (.tag name) => advance; return some name
  | _ => return none

/-- The anchor and the tag in front of a node, in either order. -/
def properties : Build (Option String × Option TagBytes) := do
  let anchor ← anchor?
  let tag ← tag?
  let anchor ← if anchor.isSome || tag.isNone then pure anchor else anchor?
  match tag with
  | some name => return (anchor, some (← expandTag name))
  | none => return (anchor, none)

/-- Takes a slot for an anchor, and gives the number of the anchor. -/
def takeSlot (name : String) : Build Nat := do
  let b ← get
  let slot := (b.names.map (·.1)).eraseDups.length
  let number := b.owners.length
  set { b with names := (name, slot) :: b.names, owners := (slot, number) :: b.owners }
  return number

/-- Notes the node of an anchor. -/
def hold (number : Nat) (node : Node) : Build Unit :=
  modify fun b => { b with nodes := (number, node) :: b.nodes }

/-- The alias of a name. -/
def aliasOf (name : String) : Build Node := do
  grow 1
  match (← get).names.lookup name with
  | some slot => return .reference slot
  | none => throw (.unknownAlias name)

/-! ## Nodes

Each function reads at most `fuel` levels and entries. -/

mutual

/-- A node. Block collections may start here if `inBlock`, and a sequence that is not indented
further than the mapping around it if `inMapping`. -/
def node (fuel : Nat) (inBlock inMapping : Bool) : Build Node :=
  match fuel with
  | 0 => throw .tooLong
  | fuel + 1 => do
    match ← peek with
    | some (.reference name) => advance; aliasOf name
    | _ =>
      let (anchor, tag) ← properties
      let number ← anchor.mapM takeSlot
      let found ← content fuel inBlock inMapping (anchor.isSome || tag.isSome) tag
      if let some number := number then hold number found
      return found

/-- A node after its anchor and its tag. -/
def content (fuel : Nat) (inBlock inMapping marked : Bool) (tag : Option TagBytes) : Build Node :=
  match fuel with
  | 0 => throw .tooLong
  | fuel + 1 => do
    match ← peek, inBlock, inMapping with
    | some .entry, _, true => grow 2; return .sequence tag (← unindentedItems fuel)
    | some (.scalar style text), _, _ =>
      advance
      grow 1
      return .scalar tag style text
    | some .flowSequence, _, _ =>
      advance; grow 2; return .sequence tag (← flowItems fuel true)
    | some .flowMapping, _, _ =>
      advance; grow 2; return .mapping tag (← flowPairs fuel true)
    | some .blockSequence, true, _ =>
      advance; grow 2; return .sequence tag (← blockItems fuel)
    | some .blockMapping, true, _ =>
      advance; grow 2; return .mapping tag (← blockPairs fuel)
    | _, _, _ => if marked then emptyNode tag else throw .form

/-- The entries of a block sequence. -/
def blockItems (fuel : Nat) : Build (List Node) :=
  match fuel with
  | 0 => throw .tooLong
  | fuel + 1 => do
    if ← accept .blockEnd then return []
    if !(← accept .entry) then throw .form
    let item ← unlessNext [.entry, .blockEnd] (node fuel true false)
    return item :: (← blockItems fuel)

/-- The entries of a sequence that is not indented further than the mapping around it. -/
def unindentedItems (fuel : Nat) : Build (List Node) :=
  match fuel with
  | 0 => throw .tooLong
  | fuel + 1 => do
    if !(← accept .entry) then return []
    let item ← unlessNext [.entry, .key, .value, .blockEnd] (node fuel true false)
    return item :: (← unindentedItems fuel)

/-- The pairs of a block mapping. -/
def blockPairs (fuel : Nat) : Build (List (Node × Node)) :=
  match fuel with
  | 0 => throw .tooLong
  | fuel + 1 => do
    if ← accept .blockEnd then return []
    if !(← accept .key) then throw .form
    let key ← unlessNext [.key, .value, .blockEnd] (node fuel true true)
    let value ←
      if ← accept .value then unlessNext [.key, .value, .blockEnd] (node fuel true true)
      else emptyNode none
    return (key, value) :: (← blockPairs fuel)

/-- The entries of a flow sequence; the first has no comma in front. -/
def flowItems (fuel : Nat) (first : Bool) : Build (List Node) :=
  match fuel with
  | 0 => throw .tooLong
  | fuel + 1 => do
    if ← accept .flowSequenceEnd then return []
    if !first && !(← accept .comma) then throw .form
    if ← accept .flowSequenceEnd then return []
    let item ← if ← accept .key then flowPair fuel else node fuel false false
    return item :: (← flowItems fuel false)

/-- An entry of a flow sequence that is a mapping of one pair. Where its key is left out, the token
after the question mark is left out too. -/
def flowPair (fuel : Nat) : Build Node :=
  match fuel with
  | 0 => throw .tooLong
  | fuel + 1 => do
    grow 2
    let key ←
      if (← peek).any ([Token.value, .comma, .flowSequenceEnd].contains ·) then
        -- The token that shows that there is no key is passed together with it.
        advance
        emptyNode none
      else node fuel false false
    let value ←
      if ← accept .value then unlessNext [.comma, .flowSequenceEnd] (node fuel false false)
      else emptyNode none
    return .mapping none [(key, value)]

/-- The pairs of a flow mapping; the first has no comma in front. -/
def flowPairs (fuel : Nat) (first : Bool) : Build (List (Node × Node)) :=
  match fuel with
  | 0 => throw .tooLong
  | fuel + 1 => do
    if ← accept .flowMappingEnd then return []
    if !first && !(← accept .comma) then throw .form
    if ← accept .flowMappingEnd then return []
    if ← accept .key then
      let key ← unlessNext [.value, .comma, .flowMappingEnd] (node fuel false false)
      let value ←
        if ← accept .value then unlessNext [.comma, .flowMappingEnd] (node fuel false false)
        else emptyNode none
      return (key, value) :: (← flowPairs fuel false)
    else
      let key ← node fuel false false
      let value ← emptyNode none
      return (key, value) :: (← flowPairs fuel false)

end

/-! ## Documents -/

/-- Whether the directives in front of a document say nothing twice and name a known version. -/
def areDirectives (directives : List Directive) : Bool :=
  let versions := directives.filterMap fun
    | .version major minor => some (major, minor)
    | .tag _ _ => none
  let handles := directives.filterMap fun
    | .version _ _ => none
    | .tag handle _ => some handle
  versions.length ≤ 1 && versions.all (fun v => v == (1, 1) || v == (1, 2)) &&
    handles.eraseDups.length == handles.length

/-- The directives in front of a document. -/
def directives : Build (List Directive) := do
  let b ← get
  let found := b.tokens.map fun
    | .directive directive => some directive
    | _ => none
  let directives := (found.takeWhile Option.isSome).filterMap id
  if !areDirectives directives then throw .directive
  let handles := directives.filterMap fun
    | .version _ _ => none
    | .tag handle value => some (handle, value)
  set { b with tokens := b.tokens.drop directives.length, handles }
  return directives

/-- Whether the next token cannot be part of the contents of a document. -/
def atDocumentEdge : Build Bool := do
  match ← peek with
  | none | some (.directive _) | some .documentStart | some .documentEnd => return true
  | some _ => return false

/-- The node at the top of a document, unless there is no document at all. -/
def root (fuel : Nat) : Build (Option Node) := do
  if (← peek).isNone then return none
  let directives ← directives
  if ← accept .documentStart then
    if ← atDocumentEdge then return some (← emptyNode none)
    else return some (← node fuel true false)
  else if directives.isEmpty then return some (← node fuel true false)
  else throw .form

end Build

/-- The document that the tokens describe. -/
def Document.ofTokens (tokens : List Token) : Except Error Document := do
  let (root, b) ← (Build.root (3 * tokens.length + 3)).run { tokens }
  if (b.tokens.dropWhile (· == .documentEnd)).isEmpty then
    -- The latest owner of a slot stands first.
    let slots := (b.owners.map (·.1)).eraseDups
    let anchored := slots.filterMap fun slot => do
      let number ← b.owners.lookup slot
      let node ← b.nodes.lookup number
      some (slot, node)
    return { root, anchored, size := max 1 b.size }
  else throw .severalDocuments

/-- The document that a text writes. -/
def Document.read (text : String) : Except Error Document := do
  ofTokens (← tokenize text)

end KeyChord.Yaml
