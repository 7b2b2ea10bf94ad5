import CallGate.Wasm.Type.Decoder

/-!
# The sections of a module

A module is a header and a sequence of framed sections. Only two of them matter here, the types and
the imports, but every frame is checked, so that no section can hide behind a broken one: custom
sections carry a valid name, the others come in their prescribed order and at most once.

What the sections said is collected in `Declarations`. The import section is read where it stands,
so an import that is no function stops the reading before later sections are looked at; type
indices are resolved only when the whole module has been framed.
-/

namespace CallGate.Wasm

open Decoder

/-- An import of a function as it is written, its type still an index. -/
structure ImportEntry where
  module : String
  name : String
  typeIndex : Nat
deriving DecidableEq, Repr

/-- An entry of the import section. Anything but a function stops the scan. -/
def ImportEntry.decode : Decoder ImportEntry := do
  let module ← Decoder.name
  let name ← Decoder.name
  let start ← position
  let b ← byte
  match ImportKind.ofByte? b with
  | none => failAt start (.importKind b)
  | some .function => return ⟨module, name, ← u32⟩
  | some kind => throw (.nonFunctionImport module name kind)

/-- A section: where its frame begins, its id, and its content. -/
structure Section where
  offset : Nat
  id : UInt8
  payload : Window
deriving DecidableEq, Repr

def Section.decode : Decoder Section := do
  let offset ← position
  let id ← byte
  let size ← u32
  return ⟨offset, id, ← window size⟩

/-- The place of a section id in the prescribed order. Tags come between memories and globals, and
the data count before the code. -/
def sectionRank? : UInt8 → Option Nat
  | 1 => some 1
  | 2 => some 2
  | 3 => some 3
  | 4 => some 4
  | 5 => some 5
  | 13 => some 6
  | 6 => some 7
  | 7 => some 8
  | 8 => some 9
  | 9 => some 10
  | 12 => some 11
  | 10 => some 12
  | 11 => some 13
  | _ => none

/-- What has been read of a module: the rank of its last ordered section, its recursion groups and
its imports. -/
structure Declarations where
  rank : Nat := 0
  groups : List RecGroup := []
  imports : List ImportEntry := []
deriving DecidableEq, Repr

/-- A vector that fills its section. -/
def wholeVector {α : Type} (item : Decoder α) (place : String) : Decoder (List α) := do
  let items ← vector item
  expectEnd place
  return items

/-- Take in one more section. -/
def Declarations.add (d : Declarations) (s : Section) : Except ScanError Declarations :=
  if s.id = 0 then do
    let _ ← Decoder.name.value s.payload
    return d
  else
    match sectionRank? s.id with
    | none => .error (.malformed s.offset (.unknownSection s.id))
    | some rank =>
      if rank ≤ d.rank then .error (.malformed s.offset (.misplacedSection s.id))
      else if s.id = 1 then do
        let groups ← (wholeVector RecGroup.decode "type section").value s.payload
        return { d with rank, groups }
      else if s.id = 2 then do
        let imports ← (wholeVector ImportEntry.decode "import section").value s.payload
        return { d with rank, imports }
      else
        return { d with rank }

theorem consumes_section : Consumes 1 Section.decode := by
  refine consumes_position.bind (n := 1) fun offset ↦ ?_
  refine consumes_byte.bind (n := 0) fun id ↦ ?_
  refine (consumes_u32.bind (n := 0) fun size ↦ ?_).mono (Nat.zero_le _)
  exact ((consumes_window size).bind (n := 0) fun _ ↦ consumes_pure _).mono (Nat.zero_le _)

/-- Take in all sections of a window. -/
def Declarations.addAll (d : Declarations) (w : Window) : Except ScanError Declarations :=
  if w.bytes.isEmpty then .ok d
  else
    match h : Section.decode w with
    | .error e _ => .error e
    | .ok s rest =>
      have _shorter : rest.bytes.length + 1 ≤ w.bytes.length := consumes_section h
      match d.add s with
      | .error e => .error e
      | .ok d => d.addAll rest
termination_by w.bytes.length

/-- The bytes that every module begins with. -/
def magic : List UInt8 := [0x00, 0x61, 0x73, 0x6D]

/-- The only version that is understood. -/
def version : List UInt8 := [0x01, 0x00, 0x00, 0x00]

/-- The declarations of a whole module. -/
def Declarations.ofBytes (bytes : List UInt8) : Except ScanError Declarations :=
  if bytes.length < 8 ∨ bytes.take 4 ≠ magic then .error (.malformed 0 .noMagic)
  else if (bytes.drop 4).take 4 ≠ version then
    .error (.malformed 4 (.version ((bytes.drop 4).take 4)))
  else
    addAll {} ⟨8, bytes.drop 8⟩

end CallGate.Wasm
