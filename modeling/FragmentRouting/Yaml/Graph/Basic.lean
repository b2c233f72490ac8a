import FragmentRouting.Text.CodePoints
import FragmentRouting.Yaml.Basic
import FragmentRouting.Yaml.Tag

/-!
The nodes of a YAML document as a graph. A node named by several aliases is one node, and a
collection may hold itself.
-/
namespace FragmentRouting.Yaml

abbrev NodeId := Nat

inductive Node where
  | scalar (tag : Tag) (content : CodePoints)
  | sequence (tag : Tag) (items : List NodeId)
  | mapping (tag : Tag) (entries : List (NodeId × NodeId))
  deriving Repr

def Node.tag : Node → Tag
  | .scalar tag _ => tag
  | .sequence tag _ => tag
  | .mapping tag _ => tag

def Node.entryCount : Node → Nat
  | .mapping _ entries => entries.length
  | _ => 0

def Node.retagged (tag : Tag) : Node → Node
  | .scalar _ content => .scalar tag content
  | .sequence _ items => .sequence tag items
  | .mapping _ entries => .mapping tag entries

abbrev Graph := Array Node

namespace Graph

def node? (g : Graph) (id : NodeId) : Option Node := g[id]?

def tag? (g : Graph) (id : NodeId) : Option Tag := (g.node? id).map (·.tag)

def replace (id : NodeId) (node : Node) (g : Graph) : Graph := g.setIfInBounds id node

def retag (id : NodeId) (tag : Tag) (g : Graph) : Graph := g.modify id (·.retagged tag)

end Graph

abbrev Merging := StateT Graph (Except Flaw)

namespace Merging

def entries (id : NodeId) : Merging (List (NodeId × NodeId)) := do
  match (← get).node? id with
  | some (.mapping _ entries) => return entries
  | _ => throw .malformed

def setEntries (id : NodeId) (entries : List (NodeId × NodeId)) : Merging Unit := do
  let some tag := (← get).tag? id | throw .malformed
  modify (Graph.replace id (.mapping tag entries))

/-- Makes a key that stands for a default value a text. -/
def settle (key : NodeId) : Merging Unit := do
  if (← get).tag? key == some .value then modify (Graph.retag key .str)

mutual

/-- Takes over entries for the merge keys of a mapping behind its first `index` entries, and gives
them back. Each merge key that is followed takes at most three steps of fuel. -/
def collect : Nat → NodeId → Nat → Merging (List (NodeId × NodeId))
  | 0, _, _ => throw .malformed
  | fuel + 1, id, index => do
    let all ← entries id
    let g ← get
    let own := (all.drop index).takeWhile fun (key, _) => g.tag? key != some .merge
    own.forM fun (key, _) => settle key
    let index := index + own.length
    match all.drop index with
    | [] => return []
    | (_, source) :: rest =>
      setEntries id (all.take index ++ rest)
      let taken ← handedOver fuel source
      return taken ++ (← collect fuel id index)

/-- The entries that a mapping, or a sequence of mappings, hands over. Of a sequence the first
mapping counts most and so comes last. -/
def handedOver : Nat → NodeId → Merging (List (NodeId × NodeId))
  | 0, _ => throw .malformed
  | fuel + 1, source => do
    match (← get).node? source with
    | some (.mapping ..) =>
      merge fuel source
      entries source
    | some (.sequence _ items) =>
      let parts ← items.mapM fun item => do
        match (← get).node? item with
        | some (.mapping ..) =>
          merge fuel item
          entries item
        | _ => throw .malformed
      return parts.reverse.flatten
    | _ => throw .malformed

/-- Replaces the merge keys of a mapping by the entries that they take over. -/
def merge : Nat → NodeId → Merging Unit
  | 0, _ => throw .malformed
  | fuel + 1, id => do
    let taken ← collect fuel id 0
    if !taken.isEmpty then setEntries id (taken ++ (← entries id))

end

/-- The entries of a mapping in a graph with at most `merges` merge keys, those that it takes over
included. -/
def merged (merges : Nat) (id : NodeId) : Merging (List (NodeId × NodeId)) := do
  merge (3 * merges + 3) id
  entries id

end Merging

end FragmentRouting.Yaml
