import CallGate.Data.Value

/-!
# Integer types of arguments

Arguments travel as untyped words. A declared type says how a word is to be read, and reading an
integer at a type means reducing it to the range of the type: modulo two to its width, with the
representative taken from zero upwards for an unsigned type and around zero for a signed one.
-/

namespace CallGate.Abi

open CallGate.Data

/-- An integer type: a width of 8 to 64 bits, signed or not. -/
inductive ArgType where
  | i8 | u8 | i16 | u16 | i32 | u32 | i64 | u64
deriving DecidableEq, Repr

namespace ArgType

/-- The width in bits. -/
def bits : ArgType → Nat
  | i8 | u8 => 8
  | i16 | u16 => 16
  | i32 | u32 => 32
  | i64 | u64 => 64

/-- The width in bytes. -/
def size (t : ArgType) : Nat := t.bits / 8

def isSigned : ArgType → Bool
  | i8 | i16 | i32 | i64 => true
  | u8 | u16 | u32 | u64 => false

def name : ArgType → String
  | i8 => "i8"
  | u8 => "u8"
  | i16 => "i16"
  | u16 => "u16"
  | i32 => "i32"
  | u32 => "u32"
  | i64 => "i64"
  | u64 => "u64"

/-- All types, narrow ones first. -/
def all : List ArgType := [i8, u8, i16, u16, i32, u32, i64, u64]

def ofName? (s : String) : Option ArgType := all.find? fun t ↦ t.name == s

@[simp] theorem ofName?_name (t : ArgType) : ofName? t.name = some t := by cases t <;> decide

/-- The type that a value names. Only a text can name one. -/
def ofValue? : Value → Option ArgType
  | .text s => ofName? s
  | _ => none

/-- The message that a value names no type. A value that cannot be written leaves a message of its
own. -/
def unknownText (v : Value) : String :=
  if v.isWritable then s!"{v.literal} is not a valid ArgType" else Value.unwritableText

/-- The written form of a type in messages. -/
def literal (t : ArgType) : String := s!"<ArgType.{t.name.toUpper}: '{t.name}'>"

/-- The number of values of a type. -/
def modulus (t : ArgType) : Nat := Nat.pow 2 t.bits

/-- Reduce an integer to the range of a type. -/
def reduce (t : ArgType) (v : Int) : Int :=
  if t.isSigned then v.bmod t.modulus else v % t.modulus

/-- The type of an argument that is declared without one. -/
def default : ArgType := i32

end ArgType

end CallGate.Abi
