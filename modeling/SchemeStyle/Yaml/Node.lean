import SchemeStyle.Yaml.Scalar
import SchemeStyle.Yaml.Token

/-!
# YAML nodes

What the tokens of a document describe: scalars with their texts, sequences and mappings, each with
its tag. A document may refer to a node by its anchor, from inside the node too, so the nodes are a
graph: they are numbered, and a collection holds the numbers of its parts. A collection gets its
number and its anchor before its parts are read. A grammar with one function for each kind of
collection reads the nodes; its recursion is bounded by the number of tokens.
-/

namespace SchemeStyle.Yaml

/-- The number of a node. -/
abbrev NodeId := Nat

/-- What a node holds. -/
inductive Content where
  | scalar (text : String)
  | sequence (items : List NodeId)
  | mapping (entries : List (NodeId × NodeId))
  deriving DecidableEq, Repr

/-- A node of a document. -/
structure Node where
  tag : Tag
  content : Content
  deriving DecidableEq, Repr

/-- A document: its nodes by their numbers, and the one that holds the others. -/
structure Document where
  nodes : Array Node
  root : NodeId
  deriving DecidableEq, Repr

namespace Document

/-! ### Readers -/

/-- What is left to read of a document, and what was read and declared in it so far. -/
structure Source where
  tokens : List Token
  nodes : Array Node := #[]
  anchors : List (String × NodeId) := []
  handles : List (String × String) := [("!", "!"), ("!!", Tag.stem)]

/-- Reads part of a document, or fails. -/
abbrev Reader := StateT Source (Except Error)

namespace Reader

/-- Gives up. -/
def refuse {α : Type} : Reader α := throw .malformed

/-- Gives up unless a condition holds. -/
def require (condition : Bool) : Reader Unit := do
  unless condition do refuse

/-- The next token, left in place. A scalar that could not be read is an error as soon as anything
looks at it. -/
def peek : Reader (Option Token) := do
  match (← get).tokens.head? with
  | some (.beyond code) => throw (.scalar (.codePoint code))
  | token => return token

/-- Drops the next token. -/
def drop : Reader Unit := modify fun s ↦ { s with tokens := s.tokens.tail }

/-- Drops the next token if it is the given one, and tells whether it was. -/
def take (token : Token) : Reader Bool := do
  if (← peek) = some token then
    drop
    return true
  else return false

/-- Drops the next token, which has to be the given one. -/
def expect (token : Token) : Reader Unit := do
  require (← take token)

end Reader

open Reader

/-! ### Anchors and tags -/

/-- The full text of a tag. -/
def fullTag (handle : Option String) (suffix : String) : Reader String := do
  match handle with
  | none => return suffix
  | some handle =>
    match (← get).handles.lookup handle with
    | some stem => return stem ++ suffix
    | none => refuse

/-- Reads an anchor, if there is one. -/
def readAnchor : Reader (Option String) := do
  match ← peek with
  | some (.anchor name) =>
    drop
    return some name
  | _ => return none

/-- Reads a tag, if there is one. -/
def readTag : Reader (Option String) := do
  match ← peek with
  | some (.tag handle suffix) =>
    drop
    return some (← fullTag handle suffix)
  | _ => return none

/-- What may stand in front of a node. -/
structure Properties where
  anchor : Option String := none
  tag : Option String := none

/-- Whether there is an anchor or a tag. -/
def Properties.present (p : Properties) : Bool := p.anchor.isSome || p.tag.isSome

/-- Reads an anchor and a tag, in either order. -/
def readProperties : Reader Properties := do
  match ← readAnchor with
  | some anchor => return { anchor, tag := ← readTag }
  | none =>
    match ← readTag with
    | some tag => return { anchor := ← readAnchor, tag }
    | none => return {}

/-! ### Nodes -/

/-- Adds a node to the document and gives it its anchor, which no other node has. -/
def addNode (anchor : Option String) (node : Node) : Reader NodeId := do
  let id := (← get).nodes.size
  modify fun s ↦ { s with nodes := s.nodes.push node }
  if let some name := anchor then
    require ((← get).anchors.lookup name).isNone
    modify fun s ↦ { s with anchors := (name, id) :: s.anchors }
  return id

/-- Gives a node its content. -/
def setContent (id : NodeId) (content : Content) : Reader Unit :=
  modify fun s ↦ { s with nodes := s.nodes.modify id fun node ↦ { node with content } }

/-- Adds a scalar. -/
def addScalar (p : Properties) (isPlain : Bool) (text : String) : Reader NodeId :=
  addNode p.anchor ⟨.ofScalar p.tag isPlain text, .scalar text⟩

/-- Adds the scalar that stands where a node is left out. -/
def addMissing (p : Properties) : Reader NodeId := addScalar p true ""

/-- Adds a sequence, whose items are read next. -/
def addSequence (p : Properties) (items : Reader (List NodeId)) : Reader NodeId := do
  let id ← addNode p.anchor ⟨.ofCollection .seq p.tag, .sequence []⟩
  setContent id (.sequence (← items))
  return id

/-- Adds a mapping, whose entries are read next. -/
def addMapping (p : Properties) (entries : Reader (List (NodeId × NodeId))) : Reader NodeId := do
  let id ← addNode p.anchor ⟨.ofCollection .map p.tag, .mapping []⟩
  setContent id (.mapping (← entries))
  return id

/-! ### The grammar -/

/-- Where a node stands: in a block, as the value of a block mapping, whose sequences need not be
indented, or inside brackets. -/
inductive Place where
  | block
  | blockValue
  | flow
  deriving DecidableEq, Repr

mutual

/-- Reads a node. -/
def readNode : Nat → Place → Reader NodeId
  | 0, _ => refuse
  | fuel + 1, place => do
    match ← peek with
    | some (.alias name) =>
      drop
      match (← get).anchors.lookup name with
      | some id => return id
      | none => refuse
    | _ => readContent fuel place (← readProperties)

/-- Reads a node after its anchor and its tag. If it has one of them, the rest may be left out. -/
def readContent : Nat → Place → Properties → Reader NodeId
  | 0, _, _ => refuse
  | fuel + 1, place, p => do
    match ← peek with
    | some (.scalar isPlain text) =>
      drop
      addScalar p isPlain text
    | some .flowSequenceStart =>
      drop
      addSequence p (readFlowItems fuel true)
    | some .flowMappingStart =>
      drop
      addMapping p (readFlowEntries fuel true)
    | some .blockEntry =>
      if place = .blockValue then addSequence p (readUnindentedItems fuel)
      else if p.present then addMissing p
      else refuse
    | token =>
      if place ≠ .flow ∧ token = some .blockSequenceStart then
        drop
        addSequence p (readBlockItems fuel)
      else if place ≠ .flow ∧ token = some .blockMappingStart then
        drop
        addMapping p (readBlockEntries fuel)
      else if p.present then addMissing p
      else refuse

/-- Reads a node, or takes it as left out if one of the tokens that may follow it comes next. -/
def readOr : Nat → Place → List Token → Reader NodeId
  | 0, _, _ => refuse
  | fuel + 1, place, followers => do
    match ← peek with
    | none => refuse
    | some token =>
      if followers.contains token then addMissing {} else readNode fuel place

/-- Reads the items of a block sequence and its end. -/
def readBlockItems : Nat → Reader (List NodeId)
  | 0 => refuse
  | fuel + 1 => do
    if ← take .blockEntry then
      let item ← readOr fuel .block [.blockEntry, .blockEnd]
      return item :: (← readBlockItems fuel)
    else
      expect .blockEnd
      return []

/-- Reads the items of a block sequence that is not indented and has no end of its own. -/
def readUnindentedItems : Nat → Reader (List NodeId)
  | 0 => refuse
  | fuel + 1 => do
    if ← take .blockEntry then
      let item ← readOr fuel .block [.blockEntry, .key, .value, .blockEnd]
      return item :: (← readUnindentedItems fuel)
    else return []

/-- Reads the entries of a block mapping and its end. -/
def readBlockEntries : Nat → Reader (List (NodeId × NodeId))
  | 0 => refuse
  | fuel + 1 => do
    if ← take .key then
      let key ← readOr fuel .blockValue [.key, .value, .blockEnd]
      let value ← readBlockValue fuel
      return (key, value) :: (← readBlockEntries fuel)
    else
      expect .blockEnd
      return []

/-- Reads the value of an entry of a block mapping. -/
def readBlockValue : Nat → Reader NodeId
  | 0 => refuse
  | fuel + 1 => do
    if ← take .value then readOr fuel .blockValue [.key, .value, .blockEnd]
    else addMissing {}

/-- Reads the items of a sequence in brackets and the closing bracket. An item may be a mapping of a
single entry without brackets of its own. -/
def readFlowItems : Nat → Bool → Reader (List NodeId)
  | 0, _ => refuse
  | fuel + 1, first => do
    if ← take .flowSequenceEnd then return []
    else
      unless first do expect .flowEntry
      if ← take .flowSequenceEnd then return []
      else if ← take .key then
        let item ← addMapping {} (readSingleEntry fuel)
        return item :: (← readFlowItems fuel false)
      else
        let item ← readNode fuel .flow
        return item :: (← readFlowItems fuel false)

/-- Reads the only entry of a mapping inside a sequence in brackets. -/
def readSingleEntry : Nat → Reader (List (NodeId × NodeId))
  | 0 => refuse
  | fuel + 1 => do
    let key ← readOr fuel .flow [.value, .flowEntry, .flowSequenceEnd]
    let value ← readFlowValue fuel [.flowEntry, .flowSequenceEnd]
    return [(key, value)]

/-- Reads the entries of a mapping in brackets and the closing bracket. -/
def readFlowEntries : Nat → Bool → Reader (List (NodeId × NodeId))
  | 0, _ => refuse
  | fuel + 1, first => do
    if ← take .flowMappingEnd then return []
    else
      unless first do expect .flowEntry
      if ← take .flowMappingEnd then return []
      else if ← take .key then
        let key ← readOr fuel .flow [.value, .flowEntry, .flowMappingEnd]
        let value ← readFlowValue fuel [.flowEntry, .flowMappingEnd]
        return (key, value) :: (← readFlowEntries fuel false)
      else
        let key ← readNode fuel .flow
        let value ← addMissing {}
        return (key, value) :: (← readFlowEntries fuel false)

/-- Reads the value of an entry inside brackets. -/
def readFlowValue : Nat → List Token → Reader NodeId
  | 0, _ => refuse
  | fuel + 1, followers => do
    if ← take .value then readOr fuel .flow followers
    else addMissing {}

end

/-! ### Documents -/

/-- Reads the directives before a document. A version is given once and has to be 1, and a tag
handle is declared once. -/
def readDirectives : Nat → Bool → List (String × String) → Reader Unit
  | 0, _, _ => refuse
  | fuel + 1, versioned, declared => do
    match ← peek with
    | some (.directive (.version major)) =>
      require (!versioned && major == 1)
      drop
      readDirectives fuel true declared
    | some (.directive (.tagHandle handle stem)) =>
      require (declared.lookup handle).isNone
      drop
      readDirectives fuel versioned ((handle, stem) :: declared)
    | some (.directive .other) =>
      drop
      readDirectives fuel versioned declared
    | _ => modify fun s ↦ { s with handles := declared ++ s.handles }

/-- Reads the only document of a text, and yields its root. -/
def readRoot (fuel : Nat) : Reader NodeId := do
  match ← peek with
  | none => addMissing {}
  | some (.directive _) | some .documentStart =>
    readDirectives fuel false []
    expect .documentStart
    match ← peek with
    | none | some (.directive _) | some .documentStart | some .documentEnd => addMissing {}
    | some _ => readNode fuel .block
  | _ => readNode fuel .block

/-- Reads the rest of a text after its document: nothing but marks of its end. -/
def readEnd : Nat → Reader Unit
  | 0 => refuse
  | fuel + 1 => do
    match ← peek with
    | none => return
    | some _ =>
      expect .documentEnd
      readEnd fuel

/-- The document of a text that holds at most one; a text that holds none has a single node, which
is left out. -/
def ofTokens (tokens : List Token) : Except Error Document := do
  let fuel := 8 * tokens.length + 8
  let reader : Reader NodeId := do
    let root ← readRoot fuel
    readEnd fuel
    return root
  let (root, source) ← reader.run { tokens }
  return ⟨source.nodes, root⟩

end Document

end SchemeStyle.Yaml
