import CategoryLint.Value.Objects
import CategoryLint.Yaml.Node
import CategoryLint.Yaml.Source

/-!
# Values of documents

The value of a document, from the graph of its nodes. In a mapping the pairs under a merge
key come first, those of several merged mappings in an order in which the earlier wins,
and then the pairs of its own; of equal keys the last gives the value and the first the
position.

Every node with parts has an object, and its value is a link to it. The objects are made
empty, and filled in the order in which the nodes were met: what is wrong inside a node
shows only then.
-/

namespace CategoryLint.Yaml

/-! ## Merge keys -/

/-- A pair of a mapping, by the numbers of its nodes. -/
abbrev Pair := Nat × Nat

namespace Nodes

/-- The pairs of a node; one that is no mapping has none. -/
def pairs (nodes : Nodes) (number : Nat) : List Pair :=
  match nodes[number]? with
  | some ⟨_, .mapping pairs⟩ => pairs
  | _ => []

/-- Whether a node is a mapping. -/
def isMapping (nodes : Nodes) (number : Nat) : Bool :=
  match nodes[number]? with
  | some ⟨_, .mapping _⟩ => true
  | _ => false

/-- The nodes with other pairs in a mapping. -/
def setPairs (nodes : Nodes) (number : Nat) (pairs : List Pair) : Nodes :=
  nodes.modify number ({ · with content := .mapping pairs })

/-- Whether a node has a tag. -/
def hasTag (nodes : Nodes) (tag : Tag) (number : Nat) : Bool :=
  nodes[number]?.any (·.tag = tag)

/-- The nodes with a text in place of a node that is the key of a default value. -/
def asText (nodes : Nodes) (number : Nat) : Nodes :=
  if nodes.hasTag .value number then nodes.modify number ({ · with tag := .str }) else nodes

/-- The number of pairs with merge keys. -/
def mergeCount (nodes : Nodes) : Nat :=
  nodes.foldl (fun n node =>
    match node.content with
    | .mapping pairs => n + pairs.countP fun p => nodes.hasTag .merge p.1
    | _ => n) 0

/-- The nodes without the first pair with a merge key in a mapping, and what it merges. -/
def takeMerge? (nodes : Nodes) (number : Nat) : Option (Nat × Nodes) :=
  let pairs := nodes.pairs number
  (pairs.find? fun p => nodes.hasTag .merge p.1).map fun p =>
    (p.2, nodes.setPairs number (pairs.eraseP fun p => nodes.hasTag .merge p.1))

/-- The mappings that are merged: the node itself, or the items of a sequence. -/
def mergeSources (nodes : Nodes) (number : Nat) : Except Fault (List Nat) :=
  let sources :=
    match nodes[number]? with
    | some ⟨_, .sequence items⟩ => items
    | _ => [number]
  if sources.all nodes.isMapping then .ok sources else .error .invalid

/-- The nodes with merged pairs in front of a mapping's own. The keys of default values in
    it are texts. -/
def addMerged (nodes : Nodes) (number : Nat) (merged : List Pair) : Nodes :=
  let nodes := (nodes.pairs number).foldl (fun nodes p => nodes.asText p.1) nodes
  nodes.setPairs number (merged ++ nodes.pairs number)

/-- The nodes without merge keys in a mapping, after the pairs `merged` were found. Of
    several merged mappings the last comes first. No more than `fuel` pairs have merge keys. -/
def flattenFrom (fuel : Nat) (merged : List Pair) (number : Nat) (nodes : Nodes) :
    Except Fault Nodes :=
  match fuel with
  | 0 => .ok (nodes.addMerged number merged)
  | fuel + 1 =>
    match nodes.takeMerge? number with
    | none => .ok (nodes.addMerged number merged)
    | some (source, nodes) => do
      let sources ← nodes.mergeSources source
      let (found, nodes) ← sources.foldlM (fun (found, nodes) source => do
        let nodes ← flattenFrom fuel [] source nodes
        return (nodes.pairs source ++ found, nodes)) ([], nodes)
      flattenFrom fuel (merged ++ found) number nodes

/-- The nodes without merge keys in a mapping. -/
def flatten (nodes : Nodes) (number : Nat) : Except Fault Nodes :=
  flattenFrom nodes.mergeCount [] number nodes

/-! ## Default values -/

/-- The text of a scalar, or of a mapping's default value. No more than `depth` default
    values are inside each other. -/
def textOf (nodes : Nodes) : (depth : Nat) → (number : Nat) → Except Fault TextValue
  | 0, _ => .error (.tooDeep .defaultValue)
  | depth + 1, number =>
    match nodes[number]? with
    | some ⟨_, .scalar text⟩ => .ok text
    | _ =>
      match (nodes.pairs number).find? fun p => nodes.hasTag .value p.1 with
      | some p => nodes.textOf depth p.2
      | none => .error .invalid

end Nodes

/-! ## Values -/

/-- The shape of the values of a tag, if they are objects. -/
def Tag.shape? : Tag → Option Shape
  | seq | omap | pairs => some .list
  | set => some .set
  | map => some .mapping
  | _ => none

/-- How far the values of a document have been made. -/
structure Making where
  /-- The nodes. -/
  nodes : Nodes
  /-- The number of objects before those of the nodes. -/
  base : Nat
  /-- The objects. -/
  objects : Objects
  /-- The values of the nodes that have been met. -/
  values : Array (Option Value)
  /-- The nodes with objects, in the order in which they were met. -/
  met : Array Nat := #[]

/-- A step that makes values. -/
abbrev Make := StateT Making (Except Fault)

namespace Make

variable [Limits]

/-- The value of a scalar with a tag, of a node with a number. -/
def scalarValue (m : Making) (tag : Tag) (number : Nat) : Except Fault Value := do
  let text ← m.nodes.textOf Limits.defaultValue number
  if tag = .timestamp ∧ m.nodes.isMapping number then .error (.scalar .timeOfMapping)
  else (tag.scalar (m.base + number + 1) text).map .scalar

/-- The value of a node. A node that is met again has the value that it had. -/
def value (number : Nat) : Make Value := do
  let m ← get
  match m.values.getD number none, m.nodes[number]? with
  | some v, _ => return v
  | none, none => throw .invalid
  | none, some node =>
    let values (v : Value) := m.values.setIfInBounds number (some v)
    match node.tag.shape? with
    | some shape =>
      let v := .link shape (m.base + number)
      set { m with values := values v, met := m.met.push number }
      return v
    | none =>
      let v ← scalarValue m node.tag number
      set { m with values := values v }
      return v

/-- The entries of a mapping, after those of earlier pairs. A key is a scalar. -/
def entries (es : Entries) : List Pair → Make Entries
  | [] => return es
  | (key, node) :: pairs => do
    match ← value key with
    | .scalar k => entries (es.put k (← value node)) pairs
    | _ => throw .invalid

/-- The values of the parts of mappings of one pair. -/
def pairValues : List Nat → Make (List (Value × Value))
  | [] => return []
  | number :: numbers => do
    match (← get).nodes.pairs number with
    | [(key, node)] =>
      let a ← value key
      let b ← value node
      return (a, b) :: (← pairValues numbers)
    | _ => throw .invalid

/-- The entries of a node that is a mapping. -/
def mapping (number : Nat) : Make Entries := do
  let m ← get
  if m.nodes.isMapping number then
    let nodes ← m.nodes.flatten number
    set { m with nodes }
    entries [] (nodes.pairs number)
  else throw .invalid

/-- The object of a node with parts. -/
def object (node : Node) (number : Nat) : Make Value := do
  match node.tag, node.content with
  | .seq, .sequence items => return .list (← items.mapM value)
  | .omap, .sequence items | .pairs, .sequence items => return .pairs (← pairValues items)
  | .set, _ => return .set (← mapping number).keys
  | .map, _ => return .mapping (← mapping number)
  | _, _ => throw .invalid

/-- Fills the object of a node. -/
def fill (number : Nat) : Make Unit := do
  match (← get).nodes[number]? with
  | none => throw .invalid
  | some node =>
    let v ← object node number
    modify fun m => { m with objects := m.objects.setIfInBounds (m.base + number) v }

/-- Fills the objects of the nodes that were met, from the one at a place on. At most `fuel`
    nodes are still to be filled. -/
def fillFrom : (fuel : Nat) → (place : Nat) → Make Unit
  | 0, _ => return ()
  | fuel + 1, place => do
    match (← get).met[place]? with
    | none => return ()
    | some number =>
      fill number
      fillFrom fuel (place + 1)

end Make

/-- The value of a graph, with its objects after those that are there. -/
def Graph.value [Limits] (objects : Objects) (g : Graph) : Except Fault (Value × Objects) := do
  let start : Making :=
    { nodes := g.nodes
      base := objects.size
      objects := objects ++ Array.replicate g.nodes.size Value.null
      values := Array.replicate g.nodes.size none }
  let (v, m) ← (Make.value g.root).run start
  let ((), m) ← (Make.fillFrom g.nodes.size 0).run m
  return (v, m.objects)

/-- The value of the document that a source is, with its objects after those that are there.
    A source without a document has no value. -/
def read [Limits] (objects : Objects) (source : Source) : Except Fault (Value × Objects) := do
  match ← Graph.ofTokens (Token.ofText source.wall source.text) with
  | none => return (.null, objects)
  | some g => g.value objects

end CategoryLint.Yaml
