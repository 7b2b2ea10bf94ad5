import CallGate.Wasm.Decoder
import CallGate.Wasm.Type

/-!
# Decoding type declarations

Forms, markers, value types and heap types share one byte space, and a decoder tells its
alternatives apart by looking at one byte. Where the byte may start a longer encoding (a heap type,
a subtype without marker, a lone subtype in a type section) it is looked at and left unread.
-/

namespace CallGate.Wasm

open Decoder

/-- A named heap type, or the index of a declared one as a signed integer. -/
def HeapType.decode : Decoder HeapType := do
  match AbstractHeap.ofByte? (← peek) with
  | some heap =>
    let _ ← byte
    return .abstract heap
  | none =>
    let start ← position
    let index ← s33
    if index < 0 then failAt start (.heapType index) else return .declared index.toNat

/-- The marker of a nullable reference in the long form. -/
def nullableMarker : UInt8 := 0x63

/-- The marker of a reference that is never null. -/
def referenceMarker : UInt8 := 0x64

def ValueType.decode : Decoder ValueType := do
  let start ← position
  let b ← byte
  match NumType.ofByte? b, AbstractHeap.ofByte? b with
  | some type, _ => return .number type
  | none, some heap => return .reference ⟨true, .abstract heap⟩
  | none, none =>
    if b = nullableMarker ∨ b = referenceMarker then
      return .reference ⟨b = nullableMarker, ← HeapType.decode⟩
    else
      failAt start (.valueType b)

def StorageType.decode : Decoder StorageType := do
  match PackedType.ofByte? (← peek) with
  | some type =>
    let _ ← byte
    return .packed type
  | none => return .value (← ValueType.decode)

/-- A storage type and a byte that says whether the field can be written. -/
def FieldType.decode : Decoder FieldType := do
  let storage ← StorageType.decode
  let start ← position
  let b ← byte
  if b = 0 then return ⟨storage, false⟩
  else if b = 1 then return ⟨storage, true⟩
  else failAt start (.mutability b)

def functionForm : UInt8 := 0x60
def structForm : UInt8 := 0x5F
def arrayForm : UInt8 := 0x5E

def CompositeType.decode : Decoder CompositeType := do
  let start ← position
  let form ← byte
  if form = functionForm then
    let params ← vector ValueType.decode
    let results ← vector ValueType.decode
    return .function ⟨params, results⟩
  else if form = structForm then
    return .struct (← vector FieldType.decode)
  else if form = arrayForm then
    return .array (← FieldType.decode)
  else
    failAt start (.compositeForm form)

/-- The marker of a declaration that others may extend. -/
def subMarker : UInt8 := 0x50

/-- The marker of a declaration that nothing may extend. -/
def finalSubMarker : UInt8 := 0x4F

def SubType.decode : Decoder SubType := do
  let b ← peek
  if b = subMarker ∨ b = finalSubMarker then
    let _ ← byte
    let supertypes ← vector u32
    let composite ← CompositeType.decode
    return ⟨composite, b = finalSubMarker, supertypes⟩
  else
    return { composite := ← CompositeType.decode }

/-- The marker of a written recursion group. -/
def groupMarker : UInt8 := 0x4E

def RecGroup.decode : Decoder RecGroup := do
  if (← peek) = groupMarker then
    let _ ← byte
    return ⟨← vector SubType.decode, true⟩
  else
    return ⟨[← SubType.decode], false⟩

end CallGate.Wasm
