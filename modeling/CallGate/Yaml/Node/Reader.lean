import CallGate.Yaml.Node
import CallGate.Yaml.Token.Lexer

/-!
# Reading nodes

The nodes of a document are read from its tokens by recursive descent. An anchor is known from the
beginning of its node on, so that an alias inside a collection can mean the collection itself.

`NodeReader` keeps the state of the lexer, the nodes and anchors that were seen so far, and the
handles that abbreviate tags. A token is looked for only where something depends on it. Every call
of a reader, but for a few, uses up a token, and a character makes a few tokens at most, so that the
length of the text bounds the depth of the descent.
-/

namespace CallGate.Yaml

open CallGate.Text

/-- What is known while nodes are read. -/
structure NodeState where
  lexer : Lexer
  /-- A bound for the number of rounds of the lexer. -/
  rounds : Nat
  nodes : Graph := #[]
  anchors : List (List Char × NodeId) := []
  /-- The handles that abbreviate tags. -/
  handles : List (List Char × List Char) := []

abbrev NodeReader := StateT NodeState (Except Fault)

namespace NodeReader

def malformed {α : Type} : NodeReader α := throw .malformed

/-! ## Tokens -/

/-- The next token, which stays where it is. -/
def peek? : NodeReader (Option Token) := do
  let s ← get
  let lexer ← s.lexer.fill s.rounds
  set { s with lexer }
  return lexer.queue.head?

/-- Leave the next token behind. -/
def drop : NodeReader Unit := modify fun s ↦ { s with lexer := s.lexer.drop }

/-- Leave the next token behind if it is the given one, and tell whether it was. -/
def accept (t : Token) : NodeReader Bool := do
  if (← peek?) = some t then
    drop
    return true
  else
    return false

/-- Leave a separator behind, which has to come next. -/
def expectSeparator : NodeReader Unit := do
  unless ← accept .separator do malformed

/-- Whether the next token is one of some. -/
def isNext (ts : List Token) : NodeReader Bool := return (← peek?).any ts.contains

/-! ## Properties -/

/-- A tag as it is written: a handle, if it has one, and the rest. -/
structure WrittenTag where
  handle : Option (List Char)
  rest : List Char

/-- What may be written in front of a node: an anchor and a tag, in either order. -/
structure Properties where
  anchor : Option (List Char) := none
  tag : Option WrittenTag := none

def anchor? : NodeReader (Option (List Char)) := do
  match ← peek? with
  | some (.anchor name) =>
    drop
    return some name
  | _ => return none

def tag? : NodeReader (Option WrittenTag) := do
  match ← peek? with
  | some (.tag handle rest) =>
    drop
    return some ⟨handle, rest⟩
  | _ => return none

def properties : NodeReader Properties := do
  match ← anchor? with
  | some name => return ⟨some name, ← tag?⟩
  | none =>
    match ← tag? with
    | some tag => return ⟨← anchor?, some tag⟩
    | none => return {}

/-- Whether nothing was written. -/
def Properties.isEmpty (p : Properties) : Bool := p.anchor.isNone && p.tag.isNone

/-- Which tag was asked for. -/
inductive TagChoice where
  /-- None was written. -/
  | none
  /-- A lone exclamation mark asks for the tag of the form. -/
  | ofForm
  | explicit (tag : Tag)

/-- The tag that was written, with its handle expanded. -/
def tagChoice (written : Option WrittenTag) : NodeReader TagChoice := do
  match written with
  | none => return .none
  | some ⟨none, rest⟩ => return if rest = ['!'] then .ofForm else .explicit (.ofUri rest)
  | some ⟨some handle, rest⟩ =>
    match (← get).handles.lookup handle with
    | some expansion => return .explicit (.ofUri (expansion ++ rest))
    | none => malformed

/-- The tag of a collection. -/
def TagChoice.ofCollection (usual : Tag) : TagChoice → Tag
  | explicit tag => tag
  | _ => usual

/-- The tag of a scalar. Without a written one, only a plain scalar has the tag of its form. -/
def TagChoice.ofScalar (text : List CodePoint) (isPlain : Bool) : TagChoice → Tag
  | explicit tag => tag
  | ofForm => .ofForm (text.map CodePoint.shown)
  | none => if isPlain then .ofForm (text.map CodePoint.shown) else .text

/-! ## Nodes -/

/-- Begin a node. -/
def add (n : Node) : NodeReader NodeId := do
  let s ← get
  set { s with nodes := s.nodes.push n }
  return s.nodes.size

/-- Begin a node, and let an anchor stand for it, which must not be in use. -/
def define (anchor : Option (List Char)) (n : Node) : NodeReader NodeId := do
  match anchor with
  | none => add n
  | some name =>
    if ((← get).anchors.lookup name).isSome then malformed
    let id ← add n
    modify fun s ↦ { s with anchors := (name, id) :: s.anchors }
    return id

/-- The node that stands where nothing is written. -/
def empty : NodeReader NodeId := add ⟨.ofForm [], .scalar []⟩

/-- A collection: it begins, and then its content is read. -/
def collection (anchor : Option (List Char)) (tag : Tag) (blank : NodeContent)
    (read : NodeReader NodeContent) : NodeReader NodeId := do
  let id ← define anchor ⟨tag, blank⟩
  let content ← read
  modify fun s ↦ { s with nodes := s.nodes.setContent id content }
  return id

mutual

/-- A node. In a block it may be a block collection, and as a key or a value in a block mapping it
may be a sequence whose items are not indented. -/
def node (fuel : Nat) (inBlock unindented : Bool) : NodeReader NodeId :=
  match fuel with
  | 0 => malformed
  | fuel + 1 => do
    match ← peek? with
    | some (.alias name) =>
      drop
      match (← get).anchors.lookup name with
      | some id => return id
      | none => malformed
    | _ =>
      let p ← properties
      let tag ← tagChoice p.tag
      let sequence (items : NodeReader (List NodeId)) : NodeReader NodeId :=
        collection p.anchor (tag.ofCollection .sequence) (.sequence [])
          (NodeContent.sequence <$> items)
      let mapping (entries : NodeReader (List (NodeId × NodeId))) : NodeReader NodeId :=
        collection p.anchor (tag.ofCollection .mapping) (.mapping [])
          (NodeContent.mapping <$> entries)
      match ← peek?, inBlock, unindented with
      | some .item, _, true => sequence (unindentedItems fuel)
      | some (.scalar text isPlain), _, _ =>
        drop
        define p.anchor ⟨tag.ofScalar text isPlain, .scalar text⟩
      | some .flowSequence, _, _ => sequence (do drop; flowItems fuel true)
      | some .flowMapping, _, _ => mapping (do drop; flowEntries fuel true)
      | some .blockSequence, true, _ => sequence (do drop; blockItems fuel)
      | some .blockMapping, true, _ => mapping (do drop; blockEntries fuel)
      | _, _, _ =>
        if p.isEmpty then malformed else define p.anchor ⟨tag.ofScalar [] true, .scalar []⟩

/-- A node, or the empty one if a token comes that cannot begin one here. -/
def nodeUnless (fuel : Nat) (stop : List Token) (inBlock unindented : Bool) :
    NodeReader NodeId :=
  match fuel with
  | 0 => malformed
  | fuel + 1 => do
    if ← isNext stop then empty else node fuel inBlock unindented

/-- The items of a block sequence and its end. -/
def blockItems (fuel : Nat) : NodeReader (List NodeId) :=
  match fuel with
  | 0 => malformed
  | fuel + 1 => do
    if ← accept .item then
      let first ← nodeUnless fuel [.item, .blockEnd] true false
      return first :: (← blockItems fuel)
    else if ← accept .blockEnd then return []
    else malformed

/-- Items as long as there are any. -/
def unindentedItems (fuel : Nat) : NodeReader (List NodeId) :=
  match fuel with
  | 0 => malformed
  | fuel + 1 => do
    if ← accept .item then
      let first ← nodeUnless fuel [.item, .key, .value, .blockEnd] true false
      return first :: (← unindentedItems fuel)
    else return []

/-- The entries of a block mapping and its end. -/
def blockEntries (fuel : Nat) : NodeReader (List (NodeId × NodeId)) :=
  match fuel with
  | 0 => malformed
  | fuel + 1 => do
    if ← accept .key then
      let stop : List Token := [.key, .value, .blockEnd]
      let key ← nodeUnless fuel stop true true
      let value ← if ← accept .value then nodeUnless fuel stop true true else empty
      return (key, value) :: (← blockEntries fuel)
    else if ← accept .blockEnd then return []
    else malformed

/-- The entry behind the indicator of a key in brackets, which `close` ends. -/
def flowEntry (fuel : Nat) (close : Token) : NodeReader (NodeId × NodeId) :=
  match fuel with
  | 0 => malformed
  | fuel + 1 => do
    let key ← nodeUnless fuel [.value, .separator, close] false false
    let value ← if ← accept .value then nodeUnless fuel [.separator, close] false false else empty
    return (key, value)

/-- The items of a sequence in brackets and its end. An item may be a lone entry of a mapping. -/
def flowItems (fuel : Nat) (isFirst : Bool) : NodeReader (List NodeId) :=
  match fuel with
  | 0 => malformed
  | fuel + 1 => do
    if ← accept .flowSequenceEnd then return []
    if !isFirst then expectSeparator
    if ← accept .key then
      let entry ← flowEntry fuel .flowSequenceEnd
      let first ← add ⟨.mapping, .mapping [entry]⟩
      return first :: (← flowItems fuel false)
    else if ← accept .flowSequenceEnd then return []
    else
      let first ← node fuel false false
      return first :: (← flowItems fuel false)

/-- The entries of a mapping in brackets and its end. An entry may be a lone key. -/
def flowEntries (fuel : Nat) (isFirst : Bool) : NodeReader (List (NodeId × NodeId)) :=
  match fuel with
  | 0 => malformed
  | fuel + 1 => do
    if ← accept .flowMappingEnd then return []
    if !isFirst then expectSeparator
    if ← accept .key then
      let entry ← flowEntry fuel .flowMappingEnd
      return entry :: (← flowEntries fuel false)
    else if ← accept .flowMappingEnd then return []
    else
      let key ← node fuel false false
      let value ← empty
      return (key, value) :: (← flowEntries fuel false)

end

/-! ## Documents -/

/-- The handles that need not be declared. -/
def usualHandles : List (List Char × List Char) := [(['!'], ['!']), (['!', '!'], Tag.common)]

/-- What some directives declare. At most one version may be given, which has to be one that is
understood, and no handle may be declared twice. -/
def directives (fuel : Nat) (hasVersion : Bool) (handles : List (List Char × List Char)) :
    NodeReader (List (List Char × List Char)) :=
  match fuel with
  | 0 => malformed
  | fuel + 1 => do
    match ← peek? with
    | some (.directive d) =>
      drop
      match d with
      | .version major _ =>
        if hasVersion || major != 1 then malformed else directives fuel true handles
      | .handle handle expansion =>
        if (handles.lookup handle).isSome then malformed
        else directives fuel hasVersion ((handle, expansion) :: handles)
      | .other => directives fuel hasVersion handles
    | _ => return handles ++ usualHandles

/-- The root of a document, which is empty if nothing is written. A document may begin without a
mark; directives need one. -/
def root (fuel : Nat) : NodeReader NodeId := do
  match ← peek? with
  | some .documentStart | some (.directive _) =>
    let handles ← directives fuel false []
    modify fun s ↦ { s with handles }
    unless ← accept .documentStart do malformed
    match ← peek? with
    | none | some (.directive _) | some .documentStart | some .documentEnd => empty
    | _ => node fuel true false
  | _ =>
    modify fun s ↦ { s with handles := usualHandles }
    node fuel true false

/-- What follows a document: marks of its end, and no other document. -/
def finish (fuel : Nat) : NodeReader Unit :=
  match fuel with
  | 0 => malformed
  | fuel + 1 => do
    if ← accept .documentEnd then finish fuel
    else if (← peek?).isSome then
      let _ ← directives fuel false []
      malformed

/-- The only document of a text, if there is any: its root and its nodes. -/
def document? (fuel : Nat) : NodeReader (Option NodeId) := do
  if (← peek?).isNone then return none
  let id ← root fuel
  finish fuel
  return some id

end NodeReader

/-- The nodes of a text that is one document, and the place of the root, if there is any. -/
def Graph.ofText (cs : List Char) : Except Fault (Graph × Option NodeId) := do
  let length := cs.length
  let (root?, s) ← (NodeReader.document? (16 * length + 16)).run
    { lexer := ← Lexer.start cs, rounds := length + 2 }
  return (s.nodes, root?)

end CallGate.Yaml
