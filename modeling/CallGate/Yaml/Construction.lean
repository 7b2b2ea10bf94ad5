import CallGate.Yaml.Merge
import CallGate.Yaml.Scalar

/-!
# Construction of values

Every node of a document makes one object, however often it is mentioned. A scalar makes its value
at once. A collection is there from its first mention on, and is filled later: the collections of a
document wait in a queue, so that outer ones are filled before inner ones, and faults are found in
that order. That is how a collection can contain itself.

A key has to be a scalar. A key that comes twice keeps its first place and its last value, where
numbers are the same key if they are equal. What is not a number equals nothing, and is the same key
only if it comes from the same node, except that the word for it is one and the same everywhere.
-/

namespace CallGate.Yaml

open CallGate.Data CallGate.Text

/-- The value of a scalar, and the node it comes from if that makes a difference. -/
structure Atom where
  value : Value
  origin : Option NodeId

/-- Whether two scalars are the same key. -/
def Atom.same (a b : Atom) : Bool :=
  a.value.equal b.value || (a.value.isNaN && b.value.isNaN && a.origin == b.origin)

/-- Put an entry into a map. A key that is there already keeps its place. -/
def insertEntry {α : Type} (key : Atom) (value : α) : List (Atom × α) → List (Atom × α)
  | [] => [(key, value)]
  | (k, v) :: es => if key.same k then (k, value) :: es else (k, v) :: insertEntry key value es

/-- What a node makes. The parts of a collection are the objects of other nodes. -/
inductive Object where
  | scalar (a : Atom)
  | list (items : List NodeId)
  | pairs (items : List (NodeId × NodeId))
  | map (entries : List (Atom × NodeId))
  | set (members : List Atom)

instance : Inhabited Object := ⟨.list []⟩

/-- What is known while objects are made. -/
structure ConstructionState where
  graph : Graph
  /-- A bound for the steps of merging. -/
  mergeSteps : Nat
  objects : Array (Option Object)
  /-- The collections in the order of their first mention. -/
  waiting : Array NodeId := #[]

abbrev Construction := StateT ConstructionState (Except Fault)

namespace Construction

/-- Let a node have an object from now on. -/
def setObject (id : NodeId) (o : Object) : Construction Unit :=
  modify fun s ↦ { s with objects := s.objects.setIfInBounds id (some o) }

/-- A collection that will be filled. -/
def wait (id : NodeId) (blank : Object) : Construction Object := do
  modify fun s ↦ { s with waiting := s.waiting.push id }
  setObject id blank
  return blank

/-- The text of a node as a scalar. A mapping with a key for a default value stands for that
value. -/
def scalarText (g : Graph) : (fuel : Nat) → NodeId → Except Fault (List CodePoint)
  | 0, _ => .error .malformed
  | fuel + 1, id =>
    match (g.node id).content with
    | .scalar text => .ok text
    | .sequence _ => .error .malformed
    | .mapping entries =>
      match entries.find? fun e ↦ (g.node e.1).tag == .value with
      | some (_, value) => scalarText g fuel value
      | none => .error .malformed

/-- The scalar that a node makes. -/
def atom (g : Graph) (id : NodeId) : Except Fault Atom := do
  let text ← scalarText g (g.size + 1) id
  let tag := (g.node id).tag
  if tag = .moment ∧ (g.entries? id).isSome then throw .mappingMoment
  let value ← scalarValue tag text
  return ⟨value, if value.isNaN && !isNaNWord text then some id else none⟩

/-- The object of a node, which is made if it is not there yet. -/
def object (id : NodeId) : Construction Object := do
  let s ← get
  match s.objects[id]!, (s.graph.node id).tag with
  | some o, _ => return o
  | none, .sequence => wait id (.list [])
  | none, .pairs => wait id (.pairs [])
  | none, .mapping => wait id (.map [])
  | none, .set => wait id (.set [])
  | none, _ =>
    let o := Object.scalar (← atom s.graph id)
    setObject id o
    return o

/-! ## Filling -/

/-- The items of a sequence. -/
def sequenceItems (id : NodeId) : Construction (List NodeId) := do
  match ((← get).graph.node id).content with
  | .sequence items => return items
  | _ => throw .malformed

/-- The entries of a mapping, with its merge keys carried out. -/
def mappingEntries (id : NodeId) : Construction (List (Atom × NodeId)) := do
  let s ← get
  let ((), graph) ← (Merging.flatten s.mergeSteps id).run s.graph
  set { s with graph }
  match graph.entries? id with
  | none => throw .malformed
  | some entries =>
    entries.foldlM (fun es (key, value) ↦ do
      match ← object key with
      | .scalar a =>
        let _ ← object value
        return insertEntry a value es
      | _ => throw .malformed) []

/-- The pair that an item of a list of pairs makes, which has to be a mapping with one entry. -/
def pair (id : NodeId) : Construction (NodeId × NodeId) := do
  match (← get).graph.entries? id with
  | some [(key, value)] =>
    let _ ← object key
    let _ ← object value
    return (key, value)
  | _ => throw .malformed

/-- Fill a collection. -/
def fill (id : NodeId) : Construction Unit := do
  match ((← get).graph.node id).tag with
  | .sequence =>
    let items ← sequenceItems id
    items.forM fun item ↦ do
      let _ ← object item
    setObject id (.list items)
  | .pairs => setObject id (.pairs (← (← sequenceItems id).mapM pair))
  | .set => setObject id (.set ((← mappingEntries id).map (·.1)))
  | _ => setObject id (.map (← mappingEntries id))

/-- Fill the collections that are waiting, from the one at `index` on. Each waits once, so that
there are at most as many as nodes. -/
def fillFrom : (fuel index : Nat) → Construction Unit
  | 0, _ => return
  | fuel + 1, index => do
    match (← get).waiting[index]? with
    | none => return
    | some id =>
      fill id
      fillFrom fuel (index + 1)

end Construction

/-- The objects of a document. Nodes that do not belong to the root have none. -/
def Graph.objects (g : Graph) (root : NodeId) : Except Fault (Array (Option Object)) := do
  let build : Construction Unit := do
    let _ ← Construction.object root
    Construction.fillFrom (g.size + 1) 0
  let ((), s) ← build.run {
    graph := g
    mergeSteps := g.entryCount + 1
    objects := .replicate g.size none
  }
  return s.objects

end CallGate.Yaml
