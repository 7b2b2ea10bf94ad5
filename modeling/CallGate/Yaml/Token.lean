import CallGate.Text.CodePoint

/-!
# Tokens

Between its characters and its nodes a document is a list of tokens. Structure that is told by
indentation has become explicit: `blockSequence` and `blockMapping` open a collection, and
`blockEnd` closes the innermost one. The end of the list is the end of the text.
-/

namespace CallGate.Yaml

open CallGate.Text

/-- What a directive in front of a document says. -/
inductive Directive where
  | version (major minor : Int)
  /-- From now on `handle` abbreviates `expansion` in tags. -/
  | handle (handle expansion : List Char)
  /-- A directive that is not understood, which does no harm. -/
  | other
deriving DecidableEq, Repr

/-- A piece of a document. -/
inductive Token where
  | directive (d : Directive)
  | documentStart
  | documentEnd
  | blockSequence
  | blockMapping
  | blockEnd
  | flowSequence
  | flowMapping
  | flowSequenceEnd
  | flowMappingEnd
  /-- The indicator in front of an item of a block sequence. -/
  | item
  /-- The comma in brackets. -/
  | separator
  | key
  | value
  | alias (name : List Char)
  | anchor (name : List Char)
  /-- A tag, its handle apart from the rest if it has one. -/
  | tag (handle : Option (List Char)) (rest : List Char)
  | scalar (content : List CodePoint) (isPlain : Bool)
deriving DecidableEq, Repr

end CallGate.Yaml
