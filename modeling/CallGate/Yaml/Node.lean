import CallGate.Text.CodePoint
import CallGate.Yaml.Tag

/-!
# Nodes of a document

A document is one node: a scalar, a sequence or a mapping, each with a tag. An alias stands for the
very node that its anchor marks, so that a node can be a part of several others, and even of itself.
A document is therefore kept as a `Graph`: all its nodes in a table, in the order in which they
begin, and the parts of a collection given by their places in the table.
-/

namespace CallGate.Yaml

open CallGate.Text

/-- The place of a node in the table of its document. -/
abbrev NodeId := Nat

/-- What a node consists of. -/
inductive NodeContent where
  | scalar (text : List CodePoint)
  | sequence (items : List NodeId)
  | mapping (entries : List (NodeId × NodeId))
deriving DecidableEq, Repr

/-- A piece of a document with its tag. -/
structure Node where
  tag : Tag
  content : NodeContent
deriving DecidableEq, Repr

instance : Inhabited Node := ⟨⟨.null, .scalar []⟩⟩

/-- The nodes of a document. -/
abbrev Graph := Array Node

namespace Graph

/-- A node by its place. -/
def node (g : Graph) (id : NodeId) : Node := g[id]!

/-- The parts of a node as a mapping, if it is one. -/
def entries? (g : Graph) (id : NodeId) : Option (List (NodeId × NodeId)) :=
  match (g.node id).content with
  | .mapping entries => some entries
  | _ => none

/-- The graph with other content in a node. -/
def setContent (g : Graph) (id : NodeId) (content : NodeContent) : Graph :=
  g.modify id fun n ↦ { n with content }

/-- The graph with another tag on a node. -/
def setTag (g : Graph) (id : NodeId) (tag : Tag) : Graph := g.modify id fun n ↦ { n with tag }

/-- The number of entries of all mappings. -/
def entryCount (g : Graph) : Nat :=
  g.foldl (fun count n ↦
    match n.content with
    | .mapping entries => count + entries.length
    | _ => count) 0

end Graph

end CallGate.Yaml
