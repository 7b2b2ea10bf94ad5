import CallGate.Report

/-!
# Why a module could not be scanned

A scan stops for one of three reasons: the bytes are no module, the module imports something that
is not a function, or an imported function points at a type that was never declared. The first
reason splits further; a `Fault` says what exactly was wrong with the bytes, and the error that
carries it says where. Wording is kept apart from the causes, in `Fault.text` and
`ImportKind.word`, so that everything else may speak of causes only.
-/

namespace CallGate.Wasm

/-- What an import entry can bring in. -/
inductive ImportKind where
  | function | table | memory | global | tag
deriving DecidableEq, Repr

/-- The kind a kind byte stands for. -/
def ImportKind.ofByte? : UInt8 → Option ImportKind
  | 0x00 => some function
  | 0x01 => some table
  | 0x02 => some memory
  | 0x03 => some global
  | 0x04 => some tag
  | _ => none

/-- The word for a kind of import. -/
def ImportKind.word : ImportKind → String
  | function => "function"
  | table => "table"
  | memory => "memory"
  | global => "global"
  | tag => "tag"

/-- What is wrong with the bytes at some offset of a module. -/
inductive Fault where
  /-- A byte was needed where the window ends. -/
  | endOfData
  /-- A run of bytes is announced that the window does not hold. -/
  | tooFewBytes (wanted left : Int)
  /-- A LEB128 integer goes on after its fifth byte. -/
  | integerTooLong
  /-- A LEB128 integer is outside the range of its type. -/
  | integerTooLarge
  /-- The content of a name is not UTF-8. -/
  | malformedUtf8
  /-- A section announces more bytes than are left. -/
  | sectionTooLarge (size left : Int)
  /-- Bytes are left over where everything should have been consumed. -/
  | trailingBytes (count : Int) (place : String)
  | heapType (index : Int)
  | valueType (byte : UInt8)
  | mutability (byte : UInt8)
  | compositeForm (byte : UInt8)
  | importKind (byte : UInt8)
  | noMagic
  | version (bytes : List UInt8)
  | unknownSection (id : UInt8)
  /-- A section comes after one that has to follow it, or twice. -/
  | misplacedSection (id : UInt8)
  /-- An imported function points at a struct or an array type. -/
  | notFunctionType (module name : String) (index : Nat)
  /-- An imported function cannot be called like a C function, and that was asked for. -/
  | notCAbi (module name : String)
deriving DecidableEq, Repr

/-! ## Wording -/

private def hexDigit (n : Nat) : Char :=
  (Nat.digitChar n)

/-- Two hexadecimal digits. -/
def hexByte (b : UInt8) : String :=
  String.ofList [hexDigit (b.toNat / 16), hexDigit (b.toNat % 16)]

/-- Hexadecimal digits of a run of bytes, two for each. -/
def hexBytes (bs : List UInt8) : String :=
  String.join (bs.map hexByte)

/-- The description of a fault, as it stands at the end of a message. -/
def Fault.text : Fault → String
  | endOfData => "unexpected end of data"
  | tooFewBytes wanted left => s!"expected {wanted} bytes, {left} left"
  | integerTooLong => "integer representation too long"
  | integerTooLarge => "integer too large"
  | malformedUtf8 => "malformed UTF-8 encoding"
  | sectionTooLarge size left => s!"section size {size} exceeds remaining {left} bytes"
  | trailingBytes count place => s!"{count} unexpected trailing bytes in {place}"
  | heapType index => s!"invalid heap type {index}"
  | valueType byte => s!"invalid value type 0x{hexByte byte}"
  | mutability byte => s!"invalid mutability 0x{hexByte byte}"
  | compositeForm byte => s!"invalid composite type form 0x{hexByte byte}"
  | importKind byte => s!"invalid import kind 0x{hexByte byte}"
  | noMagic => "magic header not detected"
  | version bytes =>
      s!"unsupported binary version {hexBytes bytes} (only core modules, version 1)"
  | unknownSection id => s!"unknown section id {id}"
  | misplacedSection id => s!"section {id} out of order or duplicated"
  | notFunctionType module name index =>
      s!"import {module}.{name} refers to non-function type {index}"
  | notCAbi module name => s!"import {module}.{name} does not have a C-ABI signature"

/-! ## Errors -/

/-- Why a scan stopped. A module that stops the scan has to be rejected, whatever the reason. -/
inductive ScanError where
  /-- The bytes at an absolute offset are malformed. -/
  | malformed (offset : Nat) (fault : Fault)
  /-- An import is a table, a memory, a global or a tag. -/
  | nonFunctionImport (module name : String) (kind : ImportKind)
  /-- An imported function has a type index that no declaration stands behind. -/
  | unresolvedType (module name : String) (index : Nat)
deriving DecidableEq, Repr

/-- What is reported when a scan stopped. -/
def ScanError.cause : ScanError → Cause
  | malformed offset fault => .malformedBinary (.int offset) (.text fault.text)
  | nonFunctionImport module name kind =>
      .nonFunctionImport (.text module) (.text name) (.text kind.word)
  | unresolvedType module name index => .unresolvedType (.text module) (.text name) (.int index)

end CallGate.Wasm
