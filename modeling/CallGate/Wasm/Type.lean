/-!
# The types a module declares

A type section declares recursion groups of subtypes; a subtype is a function, struct or array type
with its place in the subtype order. The types are kept as the format has them. The leaves are
written as single bytes, and the two directions of that correspondence, `byte` and `ofByte?`, stand
side by side.
-/

namespace CallGate.Wasm

/-! ## Leaves -/

/-- Number and vector types. -/
inductive NumType where
  | i32 | i64 | f32 | f64 | v128
deriving DecidableEq, Repr

def NumType.byte : NumType → UInt8
  | i32 => 0x7F
  | i64 => 0x7E
  | f32 => 0x7D
  | f64 => 0x7C
  | v128 => 0x7B

def NumType.ofByte? : UInt8 → Option NumType
  | 0x7F => some i32
  | 0x7E => some i64
  | 0x7D => some f32
  | 0x7C => some f64
  | 0x7B => some v128
  | _ => none

def NumType.name : NumType → String
  | i32 => "i32"
  | i64 => "i64"
  | f32 => "f32"
  | f64 => "f64"
  | v128 => "v128"

/-- Types of fields that are narrower than any value. -/
inductive PackedType where
  | i8 | i16
deriving DecidableEq, Repr

def PackedType.byte : PackedType → UInt8
  | i8 => 0x78
  | i16 => 0x77

def PackedType.ofByte? : UInt8 → Option PackedType
  | 0x78 => some i8
  | 0x77 => some i16
  | _ => none

def PackedType.name : PackedType → String
  | i8 => "i8"
  | i16 => "i16"

/-- Heap types that have a name of their own. The byte of one of them also stands, as a value type,
for the nullable reference to it. -/
inductive AbstractHeap where
  | noException | noFunction | noExternal | bottom | function | external
  | any | eq | i31 | struct | array | exception
deriving DecidableEq, Repr

def AbstractHeap.byte : AbstractHeap → UInt8
  | noException => 0x74
  | noFunction => 0x73
  | noExternal => 0x72
  | bottom => 0x71
  | function => 0x70
  | external => 0x6F
  | any => 0x6E
  | eq => 0x6D
  | i31 => 0x6C
  | struct => 0x6B
  | array => 0x6A
  | exception => 0x69

def AbstractHeap.ofByte? : UInt8 → Option AbstractHeap
  | 0x74 => some noException
  | 0x73 => some noFunction
  | 0x72 => some noExternal
  | 0x71 => some bottom
  | 0x70 => some function
  | 0x6F => some external
  | 0x6E => some any
  | 0x6D => some eq
  | 0x6C => some i31
  | 0x6B => some struct
  | 0x6A => some array
  | 0x69 => some exception
  | _ => none

def AbstractHeap.name : AbstractHeap → String
  | noException => "noexn"
  | noFunction => "nofunc"
  | noExternal => "noextern"
  | bottom => "none"
  | function => "func"
  | external => "extern"
  | any => "any"
  | eq => "eq"
  | i31 => "i31"
  | struct => "struct"
  | array => "array"
  | exception => "exn"

/-! ## References, fields and composites -/

/-- What a reference points at: a named heap type or a declared type. -/
inductive HeapType where
  | abstract (heap : AbstractHeap)
  | declared (index : Nat)
deriving DecidableEq, Repr

/-- A reference type; a nullable one has the null value. -/
structure RefType where
  nullable : Bool
  heap : HeapType
deriving DecidableEq, Repr

/-- The types of parameters and results. -/
inductive ValueType where
  | number (type : NumType)
  | reference (type : RefType)
deriving DecidableEq, Repr

/-- The types that a field can store. -/
inductive StorageType where
  | packed (type : PackedType)
  | value (type : ValueType)
deriving DecidableEq, Repr

/-- A field of a struct, or the elements of an array. -/
structure FieldType where
  storage : StorageType
  isMutable : Bool
deriving DecidableEq, Repr

/-- A function signature. -/
structure FunctionType where
  params : List ValueType
  results : List ValueType
deriving DecidableEq, Repr

inductive CompositeType where
  | function (type : FunctionType)
  | struct (fields : List FieldType)
  | array (element : FieldType)
deriving DecidableEq, Repr

/-! ## Declarations -/

/-- A declared type. Without an explicit marker a declaration is final and has no supertypes. -/
structure SubType where
  composite : CompositeType
  isFinal : Bool := true
  supertypes : List Nat := []
deriving DecidableEq, Repr

/-- The signature behind a declaration of a function type. -/
def SubType.function? (t : SubType) : Option FunctionType :=
  match t.composite with
  | .function type => some type
  | _ => none

def SubType.isFunction (t : SubType) : Bool := t.function?.isSome

/-- One entry of a type section. `explicit` tells a written recursion group from a lone subtype,
also where the written group has just one member. -/
structure RecGroup where
  types : List SubType
  explicit : Bool := false
deriving DecidableEq, Repr

/-! ## Text -/

def HeapType.text : HeapType → String
  | abstract heap => heap.name
  | declared index => toString index

def RefType.text (t : RefType) : String :=
  if t.nullable then s!"(ref null {t.heap.text})" else s!"(ref {t.heap.text})"

def ValueType.text : ValueType → String
  | number type => type.name
  | reference type => type.text

/-- A signature as `(params) -> (results)`. -/
def FunctionType.text (t : FunctionType) : String :=
  let list (types : List ValueType) := ", ".intercalate (types.map ValueType.text)
  s!"({list t.params}) -> ({list t.results})"

end CallGate.Wasm
