import SchemeStyle.Yaml.Node

/-!
# Values of YAML nodes

The value of each node that the root of a document leads to, with other nodes as its parts. Nodes
get their values in a fixed order, which matters because the first misfit decides the error: a
scalar as soon as it is met, a collection when all collections that were met before it are filled.
Until then it stands as an empty one, so a collection may hold itself.

A mapping may take over the entries of other mappings under the key `<<`. They are put in front of
its own before it is filled, the last one of several mappings first, so that own entries and earlier
mappings take precedence.
-/

namespace SchemeStyle.Yaml

/-- The value of a node, with other nodes as its parts. -/
inductive Layer where
  | scalar (s : Scalar)
  | list (items : List NodeId)
  | pairs (items : List (NodeId × NodeId))
  | map (entries : List (Scalar × NodeId))
  | set (items : List Scalar)
  deriving DecidableEq, Repr

/-- The empty collection that stands for a node with a tag until it is filled, if the tag is that of
a collection. -/
def Layer.empty? : Tag → Option Layer
  | .seq => some (.list [])
  | .omap | .pairs => some (.pairs [])
  | .map => some (.map [])
  | .set => some (.set [])
  | _ => none

/-- Whether two keys are the same in a document. There, all texts of NaN stand for one key. -/
def sameKey (j k : Scalar) : Bool := j == k || j.sameKey k

/-- What is known of the values of a document. -/
structure Draft where
  nodes : Array Node
  layers : Array (Option Layer)
  /-- The collections that are not filled, in the order in which they were met. -/
  waiting : List NodeId := []

/-- Works on a draft, or fails. -/
abbrev Drafting := StateT Draft (Except Error)

namespace Draft

/-- The draft of a document of which nothing is known. -/
def ofDocument (d : Document) : Draft where
  nodes := d.nodes
  layers := Array.replicate d.nodes.size none

/-- Whether a node has a tag. -/
def hasTag (draft : Draft) (tag : Tag) (id : NodeId) : Bool :=
  (draft.nodes[id]?).any fun node ↦ node.tag = tag

/-- The number of entries of all mappings. -/
def entryCount (draft : Draft) : Nat :=
  draft.nodes.foldl (fun n node ↦
    match node.content with
    | .mapping entries => n + entries.length
    | _ => n) 0

/-- Gives up. -/
def refuse {α : Type} : Drafting α := throw .malformed

/-- The node with a number. -/
def nodeAt (id : NodeId) : Drafting Node := do
  match (← get).nodes[id]? with
  | some node => return node
  | none => refuse

/-- The entries of a mapping. -/
def entriesAt (id : NodeId) : Drafting (List (NodeId × NodeId)) := do
  match (← nodeAt id).content with
  | .mapping entries => return entries
  | _ => refuse

/-- Replaces the entries of a mapping. -/
def setEntries (id : NodeId) (entries : List (NodeId × NodeId)) : Drafting Unit :=
  modify fun draft ↦
    let set (node : Node) : Node := { node with content := .mapping entries }
    { draft with nodes := draft.nodes.modify id set }

/-- Sets the value of a node. -/
def setLayer (id : NodeId) (layer : Layer) : Drafting Unit :=
  modify fun draft ↦ { draft with layers := draft.layers.setIfInBounds id (some layer) }

/-! ### Entries taken over -/

/-- Takes the keys `=` of a mapping for texts. -/
def nameValueKeys (entries : List (NodeId × NodeId)) : Drafting Unit :=
  modify fun draft ↦
    let rename (nodes : Array Node) (id : NodeId) : Array Node :=
      nodes.modify id fun node ↦ if node.tag = .value then { node with tag := .str } else node
    { draft with nodes := entries.foldl (fun nodes entry ↦ rename nodes entry.1) draft.nodes }

/-- Puts the entries that a mapping takes over, after those of `taken`, in front of its own. -/
def mergeFrom : Nat → NodeId → List (NodeId × NodeId) → Drafting Unit
  | 0, _, _ => refuse
  | fuel + 1, id, taken => do
    let entries ← entriesAt id
    let draft ← get
    let isOwn (entry : NodeId × NodeId) : Bool := !draft.hasTag .merge entry.1
    match entries.dropWhile isOwn with
    | [] =>
      nameValueKeys entries
      setEntries id (taken ++ entries)
    | (_, source) :: rest =>
      setEntries id (entries.takeWhile isOwn ++ rest)
      let merged (id : NodeId) : Drafting (List (NodeId × NodeId)) := do
        mergeFrom fuel id []
        entriesAt id
      let more ←
        match (← nodeAt source).content with
        | .sequence items => do
          let lists ← items.mapM merged
          pure lists.reverse.flatten
        | _ => merged source
      mergeFrom fuel id (taken ++ more)

/-- Puts the entries that a mapping takes over in front of its own. Each step removes a key `<<`,
which bounds their number. -/
def merge (id : NodeId) : Drafting Unit := do
  mergeFrom ((← get).entryCount + 1) id []

/-! ### Values -/

/-- The text of a node where a scalar is wanted. A mapping with the key `=` stands for the scalar
under it. -/
def textAt (draft : Draft) : Nat → NodeId → Except Error String
  | 0, _ => .error (.scalar .endless)
  | fuel + 1, id =>
    match (draft.nodes[id]?).map Node.content with
    | some (.scalar text) => .ok text
    | some (.mapping entries) =>
      match entries.find? fun entry ↦ draft.hasTag .value entry.1 with
      | some (_, value) => textAt draft fuel value
      | none => .error .malformed
    | _ => .error .malformed

/-- The scalar that a node stands for. -/
def scalarAt (draft : Draft) (id : NodeId) (node : Node) : Except Error Scalar :=
  if node.tag.isScalar then do
    let text ← draft.textAt (draft.nodes.size + 1) id
    match node.tag, node.content with
    | .timestamp, .mapping _ => throw (.scalar .collectionAsTimestamp)
    | tag, _ => scalarOf tag text
  else .error .malformed

/-- Meets a node: yields its value, which is an empty collection if it is not filled. -/
def meet (id : NodeId) : Drafting Layer := do
  let draft ← get
  match draft.layers[id]? with
  | some (some layer) => return layer
  | _ =>
    let node ← nodeAt id
    match Layer.empty? node.tag with
    | some layer =>
      setLayer id layer
      modify fun draft ↦ { draft with waiting := draft.waiting ++ [id] }
      return layer
    | none =>
      let layer := Layer.scalar (← draft.scalarAt id node)
      setLayer id layer
      return layer

/-- Meets a node that is a key, and so has to be a scalar. -/
def meetKey (id : NodeId) : Drafting Scalar := do
  match ← meet id with
  | .scalar s => return s
  | _ => refuse

/-- The items of a sequence, each of which is met. -/
def fillItems (id : NodeId) : Drafting (List NodeId) := do
  match (← nodeAt id).content with
  | .sequence items =>
    items.forM fun item ↦ discard (meet item)
    return items
  | _ => refuse

/-- The entries of the mappings in a sequence, each of which has one. Keys and values are met. -/
def fillPairs (id : NodeId) : Drafting (List (NodeId × NodeId)) := do
  match (← nodeAt id).content with
  | .sequence items =>
    items.mapM fun item ↦ do
      match ← entriesAt item with
      | [(key, value)] =>
        discard (meet key)
        discard (meet value)
        return (key, value)
      | _ => refuse
  | _ => refuse

/-- The entries of a mapping. Keys and values are met in order. -/
def fillEntries (id : NodeId) : Drafting (List (Scalar × NodeId)) := do
  merge id
  (← entriesAt id).foldlM (fun map (key, value) ↦ do
    let k ← meetKey key
    discard (meet value)
    return setEntry sameKey k value map) []

/-- Fills a collection. -/
def fill (id : NodeId) : Drafting Unit := do
  match (← nodeAt id).tag with
  | .seq => setLayer id (.list (← fillItems id))
  | .omap | .pairs => setLayer id (.pairs (← fillPairs id))
  | .map => setLayer id (.map (← fillEntries id))
  | .set => setLayer id (.set ((← fillEntries id).map Prod.fst))
  | _ => return

/-- Fills the collections that wait, and those that are met on the way. -/
def fillWaiting : Nat → Drafting Unit
  | 0 => return
  | fuel + 1 => do
    match (← get).waiting with
    | [] => return
    | id :: rest =>
      modify fun draft ↦ { draft with waiting := rest }
      fill id
      fillWaiting fuel

end Draft

/-- The values of a document by the numbers of its nodes. A node that the root does not lead to has
none. -/
def Document.layers (d : Document) : Except Error (Array (Option Layer)) := do
  let drafting : Drafting Unit := do
    discard (Draft.meet d.root)
    Draft.fillWaiting (d.nodes.size + 1)
  let (_, draft) ← drafting.run (.ofDocument d)
  return draft.layers

end SchemeStyle.Yaml
