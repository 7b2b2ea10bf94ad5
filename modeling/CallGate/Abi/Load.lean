import CallGate.Abi.Reading
import CallGate.Yaml.Document

/-!
# Loading tables

A table of calls is written as a YAML document. A document that is malformed, or that does not
describe a table, is refused as a whole, together with the label of the place it came from. Two
faults have no label: a scalar or an escape without a value, and calls that are given by something
without items.
-/

namespace CallGate.Abi

open CallGate.Data

/-- Why a document does not describe a table. -/
inductive InvalidTable where
  /-- It is no document. -/
  | document
  | issues (issues : List Issue)
deriving DecidableEq, Repr

/-- Why a table could not be loaded. -/
inductive LoadError where
  | invalid (source : String) (reason : InvalidTable)
  /-- A scalar or an escape of the document has no value. -/
  | scalar (fault : Yaml.Fault)
  /-- The calls are a value of the given kind, which has no items. -/
  | notIterable (kind : String)
deriving DecidableEq, Repr

/-- The label of a document that came from nowhere in particular. -/
def Table.unnamedSource : String := "<string>"

/-- How far a table looks into a value: from the table to a call, its arguments, and what is said
about one of them. -/
def Table.depth : Nat := 5

/-- The table that a document describes. -/
def Table.load (text : String) (source : String := unnamedSource) : Except LoadError Table :=
  match Yaml.load text depth with
  | .error .malformed => .error (.invalid source .document)
  | .error fault => .error (.scalar fault)
  | .ok v =>
    match Table.ofValue v with
    | .ok t => .ok t
    | .error (.issues is) => .error (.invalid source (.issues is))
    | .error (.notIterable kind) => .error (.notIterable kind)

end CallGate.Abi
