import CallGate.Abi.ArgType

/-!
# Call descriptors

A descriptor is what is known of a call: its name and its arguments in order. A table is a named
list of descriptors. Both are plain data; nothing keeps the arguments of one call from sharing a
name, but it can be asked.
-/

namespace CallGate.Abi

/-- A formal argument. An argument without a type is a raw word of some bytes. -/
structure Arg where
  name : String
  size : Nat
  type : Option ArgType
deriving DecidableEq, Repr

/-- An argument of a given type, as wide as the type. -/
def Arg.typed (name : String) (type : ArgType) : Arg := ⟨name, type.size, some type⟩

def Arg.text (a : Arg) : String :=
  match a.type with
  | some type => s!"{a.name}: {type.name}"
  | none => s!"{a.name}[{a.size}]"

/-- A call. -/
structure Descriptor where
  name : String
  args : List Arg := []
deriving DecidableEq, Repr

namespace Descriptor

/-- The number of arguments. -/
def arity (d : Descriptor) : Nat := d.args.length

def argTypes (d : Descriptor) : List (Option ArgType) := d.args.map (·.type)

/-- Whether no two arguments share a name. -/
def hasDistinctArgs (d : Descriptor) : Bool :=
  let names := d.args.map (·.name)
  names.eraseDups.length == names.length

/-- The width of the error number that every call returns, in bytes. -/
def returnSize : Nat := ArgType.i32.size

def text (d : Descriptor) : String :=
  d.name ++ "(" ++ ", ".intercalate (d.args.map Arg.text) ++ ")"

end Descriptor

/-- A named table of calls. -/
structure Table where
  name : String
  calls : List Descriptor := []
deriving DecidableEq, Repr

end CallGate.Abi
