import CallGate.Yaml.Cursor
import CallGate.Yaml.Node

/-!
# Merge keys

Under a merge key a mapping takes over the entries of another mapping, or of a sequence of them, the
first of which win. What is taken over comes in front of the own entries of the mapping, so that
those win over all others, and the merge key itself is gone. The mapping that is taken from has its
own merge keys carried out first, for good, even if it is the mapping in hand.

On the way, keys for default values become ordinary texts.

A merge key is taken out before what is under it is looked at, so that the merge keys of a document
become fewer with every step, and their number bounds the steps that wait for each other.
-/

namespace CallGate.Yaml

/-- A change to the nodes of a document. -/
abbrev Merging := StateT Graph (Except Fault)

namespace Merging

/-- The entries of a mapping as they are now. -/
def entries (id : NodeId) : Merging (List (NodeId × NodeId)) :=
  return ((← get).entries? id).getD []

/-- Make the keys for default values among some entries texts. -/
def retag (entries : List (NodeId × NodeId)) : Merging Unit :=
  entries.forM fun (key, _) ↦
    modify fun g ↦ if (g.node key).tag = .value then g.setTag key .text else g

/-- The entries of a mapping after its merge keys were carried out by `flatten`. -/
def flattened (flatten : NodeId → Merging Unit) (id : NodeId) :
    Merging (List (NodeId × NodeId)) := do
  if ((← get).entries? id).isNone then throw .malformed
  flatten id
  entries id

/-- The entries that are taken over from a node. -/
def takenFrom (flatten : NodeId → Merging Unit) (id : NodeId) :
    Merging (List (NodeId × NodeId)) := do
  match ((← get).node id).content with
  | .sequence items => return (← items.mapM (flattened flatten)).reverse.flatten
  | _ => flattened flatten id

/-- Carry out the merge keys of a mapping from an entry on. `taken` was taken over already. -/
def flattenFrom : (fuel : Nat) → (id : NodeId) → (index : Nat) →
    (taken : List (NodeId × NodeId)) → Merging Unit
  | 0, _, _, _ => throw .malformed
  | fuel + 1, id, index, taken => do
    let es ← entries id
    let g ← get
    let plain := (es.drop index).takeWhile fun e ↦ (g.node e.1).tag != .merge
    retag plain
    match es[index + plain.length]? with
    | none =>
      unless taken.isEmpty do modify (·.setContent id (.mapping (taken ++ es)))
    | some (_, value) =>
      modify (·.setContent id (.mapping (es.eraseIdx (index + plain.length))))
      let more ← takenFrom (fun id ↦ flattenFrom fuel id 0 []) value
      flattenFrom fuel id (index + plain.length) (taken ++ more)

/-- Carry out the merge keys of a mapping, in at most `fuel` steps that wait for each other. -/
def flatten (fuel : Nat) (id : NodeId) : Merging Unit := flattenFrom fuel id 0 []

end Merging

end CallGate.Yaml
