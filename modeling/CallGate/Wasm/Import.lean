import CallGate.Data.Position
import CallGate.Wasm.Module

/-!
# Imported functions

An import names its type by an index into all declared subtypes, counted through the groups. An
`Import` holds what the index stands for: the group, which group of the module it is, and the place
in it. Two imports share a group exactly when both point into the same entry of the type section;
equal groups declared twice are two groups, and the ordinal keeps them apart.
-/

namespace CallGate.Wasm

/-- A declared subtype seen from its group. -/
structure TypeRef where
  /-- Which entry of the type section the group is. -/
  ordinal : Nat
  group : RecGroup
  /-- Which member of the group the type is. -/
  place : Fin group.types.length
deriving DecidableEq, Repr

/-- The signature was asked for of an import whose type is none of a function. -/
structure NoSignature where
  module : String
  name : String
  typeIndex : Int
deriving DecidableEq, Repr

def NoSignature.text (e : NoSignature) : String :=
  s!"Import {e.module}.{e.name} has non-function type {e.typeIndex}"

namespace TypeRef

def subType (t : TypeRef) : SubType := t.group.types[t.place]

/-- The signature that the type gives to a function that is imported under some names and refers to
the type by some index. -/
def signature (module name : String) (typeIndex : Int) (t : TypeRef) :
    Except NoSignature FunctionType :=
  match t.subType.function? with
  | some type => .ok type
  | none => .error ⟨module, name, typeIndex⟩

/-- Whether functions of the type can be called like C functions: it is declared outside written
recursion groups, is final, and is a function type with at most one result. -/
def isCAbi (t : TypeRef) : Bool :=
  !t.group.explicit && t.subType.isFinal &&
    match t.subType.function? with
    | some type => type.results.length ≤ 1
    | none => false

end TypeRef

/-- The member of a group at a position. -/
def RecGroup.refAt (g : RecGroup) (ordinal : Nat) (position : Int) :
    Except Data.PositionFault TypeRef :=
  (Data.placeAt g.types.length position).map fun place ↦ ⟨ordinal, g, place⟩

/-- All members of a group, in order. -/
def RecGroup.refs (g : RecGroup) (ordinal : Nat) : List TypeRef :=
  (List.finRange g.types.length).map fun place ↦ ⟨ordinal, g, place⟩

/-- The subtypes that the groups of a type section declare, in the order of their indices. -/
def indexSpace (groups : List RecGroup) : List TypeRef :=
  groups.zipIdx.flatMap fun (g, ordinal) ↦ g.refs ordinal

/-- An imported function with its type. -/
structure Import where
  module : String
  name : String
  typeIndex : Nat
  type : TypeRef
deriving DecidableEq, Repr

namespace Import

def subType (i : Import) : SubType := i.type.subType

/-- The signature of an imported function. -/
def signature (i : Import) : Except NoSignature FunctionType :=
  i.type.signature i.module i.name i.typeIndex

/-- Whether the import can be called like a C function. -/
def isCAbi (i : Import) : Bool := i.type.isCAbi

/-- The name an import is known by. -/
def qualifiedName (i : Import) : String := s!"{i.module}.{i.name}"

/-- The name followed by the signature. -/
def text (i : Import) : String :=
  match i.subType.function? with
  | some type => i.qualifiedName ++ type.text
  | none => i.qualifiedName

end Import

/-- Find the type of an import. It has to be a function and, where `requireCAbi` says so, one that
can be called like a C function. -/
def ImportEntry.resolve (space : List TypeRef) (requireCAbi : Bool) (e : ImportEntry) :
    Except ScanError Import :=
  match space[e.typeIndex]? with
  | none => .error (.unresolvedType e.module e.name e.typeIndex)
  | some type =>
    let i : Import := ⟨e.module, e.name, e.typeIndex, type⟩
    if !i.subType.isFunction then
      .error (.malformed 0 (.notFunctionType e.module e.name e.typeIndex))
    else if requireCAbi && !i.isCAbi then
      .error (.malformed 0 (.notCAbi e.module e.name))
    else
      .ok i

/-- The functions that a module imports, in order. -/
def importsOf (bytes : List UInt8) (requireCAbi : Bool := false) :
    Except ScanError (List Import) := do
  let d ← Declarations.ofBytes bytes
  d.imports.mapM (ImportEntry.resolve (indexSpace d.groups) requireCAbi)

/-- The imports whose name is on a list, in order. -/
def Import.forbidden (names : List String) (imports : List Import) : List Import :=
  imports.filter fun i ↦ names.contains i.name

end CallGate.Wasm
