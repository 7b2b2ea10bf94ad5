import CallGate.Abi.Descriptor
import CallGate.Data.Issue

/-!
# Reading descriptors from plain data

Tables are written by hand, so an argument has short notations: its bare name, its name with its
type, or a full record. `Arg.spelledOut` brings the short ones into record form, and
`Arg.completed` settles the type and the size of a record, each from the other. Only then are the
fields checked. A size next to a type is compared as it was written, before it is read as a number.

The calls of a table may be given by anything that has items: a list, a map, whose keys are taken,
or a text, whose characters are. A bare text among the items is a call without arguments. A value
without items is no fault of the table that could be reported along with others; it ends the
reading. The arguments of a call are stricter and have to be a list or its like.
-/

namespace CallGate.Abi

open CallGate.Data

/-! ## Arguments -/

/-- Why the type and the size of an argument cannot both stand. -/
inductive ArgFault where
  | unknownType (type : Value)
  | sizeMismatch (size : Value) (type : ArgType)

def ArgFault.text : ArgFault → String
  | unknownType type => ArgType.unknownText type
  | sizeMismatch size type =>
      if size.isWritable then
        s!"size {size.display} does not match type {type.name} ({type.size} bytes)"
      else Value.unwritableText

/-- The record behind a short notation: a bare name, or a name with a type. -/
def Arg.spelledOut : Value → Value
  | .text name => .map [(.text "name", .text name)]
  | .broken name => .map [(.text "name", .broken name)]
  | .map [(.text "name", name)] => .map [(.text "name", name)]
  | .map [(name, type)] => .map [(.text "name", name), (.text "type", type)]
  | v => v

/-- A value that is there and is not null. -/
def present? (key : String) (fields : List (Value × Value)) : Option Value :=
  match Value.field? key fields with
  | some .null => none
  | v => v

/-- The type of an argument and its size as it is written. An argument with neither has the default
type; a type brings its size; a size alone makes a raw argument. -/
def Arg.completed (fields : List (Value × Value)) : Except ArgFault (Option ArgType × Value) :=
  match present? "type" fields, Value.field? "size" fields with
  | none, none => .ok (some ArgType.default, .int ArgType.default.size)
  | none, some size => .ok (none, size)
  | some type, size? =>
    match ArgType.ofValue? type with
    | none => .error (.unknownType type)
    | some t =>
      match size? with
      | none => .ok (some t, .int t.size)
      | some size =>
        if size.equal (.int t.size) then .ok (some t, size) else .error (.sizeMismatch size t)

/-- A positive integer. -/
def positive (v : Value) : Checked Nat :=
  match lenientInteger v with
  | .error is => .error is
  | .ok n => if 0 < n then .ok n.toNat else .fail (.greaterThan 0)

/-- An argument from its fields. -/
def Arg.ofFields (fields : List (Value × Value)) : Checked Arg :=
  match Arg.completed fields with
  | .error fault => .fail (.rule fault.text)
  | .ok (type, size) =>
    let checked :=
      Checked.both (Checked.required "name" nonEmptyText fields)
        (Checked.both (Checked.under (.key "size") (positive size))
          (Checked.noOtherKeys ["name", "size", "type"] fields))
    match Checked.withKeys fields checked with
    | .error is => .error is
    | .ok (name, size, ()) => .ok ⟨name, size, type⟩

/-- An argument in any notation. -/
def Arg.ofValue (v : Value) : Checked Arg :=
  match Arg.spelledOut v with
  | .map fields => Arg.ofFields fields
  | _ => .fail (.modelType "AbiArg")

/-! ## Calls -/

/-- The arguments of a call; null stands for none. -/
def argsOfValue : Value → Checked (List Arg)
  | .null => .ok []
  | .list items | .tuple items | .set items => Checked.each Arg.ofValue 0 items
  | _ => .fail .tupleType

/-- A call from a record of its name and its arguments. -/
def Descriptor.ofValue : Value → Checked Descriptor
  | .map fields =>
    let checked :=
      Checked.both (Checked.required "name" nonEmptyText fields)
        (Checked.both (Checked.optional "args" [] argsOfValue fields)
          (Checked.noOtherKeys ["name", "args"] fields))
    match Checked.withKeys fields checked with
    | .error is => .error is
    | .ok (name, args, ()) => .ok ⟨name, args⟩
  | _ => .fail (.modelType "AbiDescriptor")

/-! ## Tables -/

/-- Why a table was refused. -/
inductive TableFault where
  | issues (issues : List Issue)
  /-- The calls are a value of the given kind, which has no items. -/
  | notIterable (kind : String)
deriving DecidableEq, Repr

def TableFault.notIterableText (kind : String) : String := s!"'{kind}' object is not iterable"

/-- The items that the calls of a table are given by, or the kind of the value if it has none. -/
def callItems : Value → Except String (List Value)
  | .null => .ok []
  | .list items | .tuple items | .set items => .ok items
  | .map entries => .ok (entries.map (·.1))
  | .text s => .ok (s.toList.map fun c ↦ .text (String.singleton c))
  | .broken ps => .ok (ps.map fun p ↦ .ofPoints [p])
  | .bytes content => .ok (content.map fun b ↦ .int b.toNat)
  | v => .error v.kindName

/-- A call among the calls of a table, where a bare text is a name. -/
def Descriptor.ofItem : Value → Checked Descriptor
  | .text name => Descriptor.ofValue (.map [(.text "name", .text name)])
  | .broken name => Descriptor.ofValue (.map [(.text "name", .broken name)])
  | v => Descriptor.ofValue v

/-- A table from a record of its name and its calls. -/
def Table.ofValue : Value → Except TableFault Table
  | .map fields =>
    match callItems ((Value.field? "calls" fields).getD .null) with
    | .error kind => .error (.notIterable kind)
    | .ok items =>
      let checked :=
        Checked.both (Checked.required "name" nonEmptyText fields)
          (Checked.both (Checked.under (.key "calls") (Checked.each Descriptor.ofItem 0 items))
            (Checked.noOtherKeys ["name", "calls"] fields))
      match Checked.withKeys fields checked with
      | .error is => .error (.issues is)
      | .ok (name, calls, ()) => .ok ⟨name, calls⟩
  | _ => .error (.issues [⟨[], .modelType "DescriptorTable"⟩])

end CallGate.Abi
