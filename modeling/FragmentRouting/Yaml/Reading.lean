import FragmentRouting.Yaml.Graph.Basic
import FragmentRouting.Yaml.Graph.Parser
import FragmentRouting.Yaml.Scalar

/-!
Reading a YAML document as plain data. The value of a collection is worked out once, however often
it occurs; where a collection occurs inside itself, null stands for it.
-/
namespace FragmentRouting.Yaml

inductive Item where
  | value (v : Value)
  | collection (id : NodeId)

inductive Collection where
  | list (items : List Item)
  | pairs (items : List (Item × Item))
  | set (members : List Value)
  | map (entries : List (Value × Item))

/-- The state of building: the graph, a bound on the merges in it, what its nodes stand for as far
as that is known, the collections noted, the last one first, and those filled in. -/
structure Builder where
  graph : Graph
  merges : Nat
  items : Array (Option Item)
  noted : List NodeId := []
  filled : Array (Option Collection)

abbrev Building := StateT Builder (Except Flaw)

namespace Builder

def start (graph : Graph) : Builder where
  graph
  merges := graph.foldl (fun n node => n + node.entryCount) 1
  items := .replicate graph.size none
  filled := .replicate graph.size none

/-- What a scalar spells. A mapping may stand for a scalar by its default value, which may be a
mapping again; `fuel` bounds how often, so that a mapping that stands for itself is too deep. -/
def content (g : Graph) : Nat → NodeId → Except Flaw CodePoints
  | 0, _ => .error .tooDeep
  | fuel + 1, id =>
    match g.node? id with
    | some (.scalar _ content) => .ok content
    | some (.mapping _ entries) =>
      match entries.find? fun (key, _) => g.tag? key == some .value with
      | some (_, value) => content g fuel value
      | none => .error .malformed
    | _ => .error .malformed

def scalar (g : Graph) (id : NodeId) (tag : Tag) : Except Flaw Value := do
  let content ← content g (g.size + 1) id
  match tag, g.node? id with
  | .timestamp, some (.mapping ..) => throw .compositeTimestamp
  | _, _ => scalarValue tag content

def meet (id : NodeId) (node : Node) : Building Item := do
  match node.tag with
  | .seq | .map | .pairs | .set =>
    modify fun b => { b with noted := id :: b.noted }
    return .collection id
  | .merge | .value | .unknown => throw .malformed
  | tag => return .value (← scalar (← get).graph id tag)

def item (id : NodeId) : Building Item := do
  let b ← get
  match b.items[id]?.join, b.graph.node? id with
  | some item, _ => return item
  | none, some node =>
    let item ← meet id node
    modify fun b => { b with items := b.items.setIfInBounds id (some item) }
    return item
  | none, none => throw .malformed

def pair (key value : NodeId) : Building (Item × Item) := do
  let key ← item key
  return (key, ← item value)

def onlyEntry (id : NodeId) : Building (Item × Item) := do
  match (← get).graph.node? id with
  | some (.mapping _ [(key, value)]) => pair key value
  | _ => throw .malformed

/-- Takes one entry into a map. A collection cannot be a key. -/
def takeEntry (read : List (Value × Item)) (entry : NodeId × NodeId) :
    Building (List (Value × Item)) := do
  match ← item entry.1 with
  | .value key => return OrderedMap.insert key (← item entry.2) read
  | .collection _ => throw .malformed

def entries (id : NodeId) : Building (List (Value × Item)) := do
  let b ← get
  let (entries, graph) ← (Merging.merged b.merges id).run b.graph
  modify fun b => { b with graph }
  entries.foldlM takeEntry []

/-- What a collection holds. Its tag must fit its node. -/
def collection (id : NodeId) : Building Collection := do
  match (← get).graph.node? id with
  | some (.sequence .seq items) => return .list (← items.mapM item)
  | some (.sequence .pairs items) => return .pairs (← items.mapM onlyEntry)
  | some (.mapping .set _) => return .set ((← entries id).map (·.1))
  | some (.mapping .map _) => return .map (← entries id)
  | _ => throw .malformed

def fillIn (id : NodeId) : Building Unit := do
  let collection ← collection id
  modify fun b => { b with filled := b.filled.setIfInBounds id (some collection) }

def fillAll : Nat → Building Unit
  | 0 => return ()
  | fuel + 1 => do
    let noted := (← get).noted.reverse
    if !noted.isEmpty then
      modify fun b => { b with noted := [] }
      noted.forM fillIn
      fillAll fuel

def build (root : NodeId) : Building Item := do
  let root ← item root
  fillAll ((← get).graph.size + 1)
  return root

end Builder

abbrev Values := Array (Option Value)

mutual

/-- The value of an item; `fuel` bounds the depth. -/
def itemValue (filled : Array (Option Collection)) : Nat → Item → StateM Values Value
  | _, .value v => return v
  | 0, .collection _ => return .null
  | fuel + 1, .collection id => do
    match (← get)[id]?.join, filled[id]?.join with
    | some v, _ => return v
    | none, none => return .null
    | none, some collection =>
      modify (·.setIfInBounds id (some .null))
      let v ← collectionValue filled fuel collection
      modify (·.setIfInBounds id (some v))
      return v

def collectionValue (filled : Array (Option Collection)) :
    Nat → Collection → StateM Values Value
  | 0, _ => return .null
  | fuel + 1, collection => do
    match collection with
    | .list items => return .list (← items.mapM (itemValue filled fuel))
    | .pairs items =>
      return .list (← items.mapM fun (key, value) => do
        let key ← itemValue filled fuel key
        return .tuple [key, ← itemValue filled fuel value])
    | .set members => return .set members
    | .map entries =>
      return .map (← entries.mapM fun (key, item) => return (key, ← itemValue filled fuel item))

end

/-- The value of a document, of which nodes may be nested to some depth. An empty one is null. -/
def read (nesting : Nat) (document : Text) : Except Flaw Value := do
  match ← parse nesting document with
  | (none, _) => return .null
  | (some root, graph) =>
    let (item, b) ← (Builder.build root).run (Builder.start graph)
    let (v, _) := (itemValue b.filled (2 * graph.size + 2) item).run (.replicate graph.size none)
    return v

end FragmentRouting.Yaml
