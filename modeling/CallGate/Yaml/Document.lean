import CallGate.Yaml.Construction
import CallGate.Yaml.Node.Reader

/-!
# The value of a document

A text is read in four steps: tokens, nodes, objects, values. An empty text has the value null.

A collection that contains itself has no finite value. It is written out for a given number of
levels from the root on, and what stands at the last level is cut where a collection would begin
again inside itself. Everything that does not go round in a circle is written out whole.
-/

namespace CallGate.Yaml

open CallGate.Data

/-- The values that were written out and do not depend on where they stand. -/
abbrev Unfolding := StateM (Array (Option Value))

namespace Unfolding

/-- The object of a node. -/
def objectOf (objects : Array (Option Object)) (id : NodeId) : Object := (objects[id]!).getD default

/-- Write out a collection by writing out its parts. -/
def ofObject {m : Type → Type} [Monad m] (part : NodeId → m Value) : Object → m Value
  | .scalar a => return a.value
  | .list items => .list <$> items.mapM part
  | .pairs items => .list <$> items.mapM fun (key, value) ↦ do
    return .tuple [← part key, ← part value]
  | .map entries => .map <$> entries.mapM fun (key, value) ↦ do return (key.value, ← part value)
  | .set members => return .set (members.map (·.value))

/-- Whether an object is written like a map where it is cut. -/
def isMap : Object → Bool
  | .map _ => true
  | _ => false

/-- Write out a node that is inside the collections on `path`, and tell whether nothing in it is
cut. -/
def whole (objects : Array (Option Object)) : (fuel : Nat) → (path : List NodeId) → NodeId →
    StateT Bool Unfolding Value
  | 0, _, _ => return .cut false
  | fuel + 1, path, id => do
    match (← getThe (Array (Option Value)))[id]! with
    | some v => return v
    | none =>
      let o := objectOf objects id
      if path.contains id then
        set false
        return .cut (isMap o)
      let outer ← get
      set true
      let v ← ofObject (whole objects fuel (id :: path)) o
      if ← get then modifyThe (Array (Option Value)) (·.setIfInBounds id (some v))
      set (outer && (← get))
      return v

/-- Write out a node for some levels. -/
def levels (objects : Array (Option Object)) : (depth : Nat) → NodeId → Unfolding Value
  | 0, id => return (← (whole objects (objects.size + 1) [] id).run true).1
  | depth + 1, id => do
    let (v, isWhole) ← (whole objects (objects.size + 1) [] id).run true
    if isWhole then return v else ofObject (levels objects depth) (objectOf objects id)

end Unfolding

/-- The value of a text that is one document. -/
def valueOfChars (depth : Nat) (cs : List Char) : Except Fault Value := do
  match ← Graph.ofText cs with
  | (_, none) => return .null
  | (g, some root) =>
    let objects ← g.objects root
    return (Unfolding.levels objects depth root (.replicate objects.size none)).1

/-- The value of a text that is one document. Collections that contain themselves are written out
for `depth` levels before they are cut. -/
def load (text : String) (depth : Nat := 0) : Except Fault Value := valueOfChars depth text.toList

end CallGate.Yaml
