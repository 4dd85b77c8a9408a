import SchemeStyle.Yaml.Draft

/-!
# Values of YAML texts

The layers of a document unfold into a value. A collection that is met inside itself is not unfolded
again. One that never leads back to itself or to what it stands in is unfolded once, wherever it is
referred to, so the value is no larger in memory than its document.
-/

namespace SchemeStyle.Yaml

/-- The value of a node. -/
structure Unfolded where
  value : Value
  /-- Whether all of the value is there, so that it is the same wherever the node stands. -/
  complete : Bool := true

/-- The complete values that are known. -/
abbrev Unfolding := StateM (Array (Option Value))

/-- Unfolds a node inside the collections of a path. -/
def unfold (layers : Array (Option Layer)) : Nat → List NodeId → NodeId → Unfolding Unfolded
  | 0, _, _ => return { value := default, complete := false }
  | fuel + 1, path, id => do
    let all (ids : List NodeId) : Unfolding (List Unfolded) :=
      ids.mapM (unfold layers fuel (id :: path))
    let collection (e : Enclosing) (unfolded : Unfolding Unfolded) : Unfolding Unfolded := do
      if path.contains id then return { value := .enclosing e, complete := false }
      let u ← unfolded
      if u.complete then modify fun known ↦ known.setIfInBounds id (some u.value)
      return u
    match (← get)[id]?.join, layers[id]?.join with
    | some value, _ => return { value }
    | none, none => return { value := default }
    | none, some (.scalar s) => return { value := .scalar s }
    | none, some (.set items) => return { value := .set items }
    | none, some (.list items) =>
      collection .list do
        let parts ← all items
        return ⟨.list (parts.map Unfolded.value), parts.all Unfolded.complete⟩
    | none, some (.pairs items) =>
      collection .list do
        let keys ← all (items.map Prod.fst)
        let values ← all (items.map Prod.snd)
        let pairs := (keys.zip values).map fun (k, v) ↦ Value.pair k.value v.value
        return ⟨.list pairs, (keys ++ values).all Unfolded.complete⟩
    | none, some (.map entries) =>
      collection .map do
        let values ← all (entries.map Prod.snd)
        let named := (entries.map Prod.fst).zip (values.map Unfolded.value)
        return ⟨.map named, values.all Unfolded.complete⟩

/-- The value of a document. The values of a mapping are unfolded each for itself, not as parts of
the mapping: who takes an entry does not see the mapping around it. -/
def Document.value (d : Document) : Except Error Value := do
  let layers ← d.layers
  let unfolded (id : NodeId) : Unfolding Value :=
    return (← unfold layers (d.nodes.size + 1) [] id).value
  let unfolding : Unfolding Value := do
    match layers[d.root]?.join with
    | some (.map entries) =>
      return .map (← entries.mapM fun (key, id) ↦ return (key, ← unfolded id))
    | _ => unfolded d.root
  return (unfolding.run (Array.replicate d.nodes.size none)).1

/-- The value of a YAML text with at most one document. -/
def readValue (text : List Char) : Except Error Value := do
  match Token.ofText? text with
  | none => throw .malformed
  | some tokens =>
    let document ← Document.ofTokens tokens
    document.value

end SchemeStyle.Yaml
