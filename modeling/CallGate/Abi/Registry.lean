import CallGate.Abi.Descriptor
import CallGate.Data.Keyed
import CallGate.Report

/-!
# Registries of calls

A registry is an ordered catalogue of calls by name. A name takes its place when it is first
registered, and keeps it when its descriptor is replaced. A frozen registry takes nothing in any
more.

`Registration` is what happens to a registry: an action that may fail and whose effect up to the
failure stays, so that registering a table keeps the calls before the first one refused.
-/

namespace CallGate.Abi

/-- Why a registry could not do what was asked. -/
inductive RegistryError where
  /-- No call of that name is registered. -/
  | unknown (name : String)
  /-- A call of that name is registered already. -/
  | duplicate (name : String)
  /-- The registry is frozen. -/
  | frozen (name : String)
deriving DecidableEq, Repr

/-- What is reported when a registry failed. -/
def RegistryError.cause : RegistryError → Cause
  | unknown name => .unknownAbi (.text name)
  | duplicate name => .duplicateAbi (.text name)
  | frozen name => .frozenRegistry (.text name)

/-- An ordered catalogue of calls, each under a name of its own. -/
structure Registry where
  descriptors : List Descriptor
  isFrozen : Bool
  nodup_names : (descriptors.map (·.name)).Nodup
deriving DecidableEq

/-- A change to a registry that may fail on the way. -/
abbrev Registration := EStateM RegistryError Registry

namespace Registry

/-- The registry without calls, which is open. -/
def empty : Registry := ⟨[], false, List.nodup_nil⟩

/-- The names, in the order of their first registration. -/
def names (r : Registry) : List String := r.descriptors.map (·.name)

def size (r : Registry) : Nat := r.descriptors.length

def contains (r : Registry) (name : String) : Bool := r.descriptors.any (·.name == name)

def find? (r : Registry) (name : String) : Option Descriptor :=
  r.descriptors.find? (·.name == name)

def get (r : Registry) (name : String) : Except RegistryError Descriptor :=
  match r.find? name with
  | some d => .ok d
  | none => .error (.unknown name)

/-- A registry with a descriptor in the place of its name, which is at the end for a new name. -/
def put (d : Descriptor) (r : Registry) : Registry where
  descriptors := Data.place (·.name) d r.descriptors
  isFrozen := r.isFrozen
  nodup_names := Data.nodup_map_place _ d r.nodup_names

/-- Take in a descriptor; one that is there already only if it may be replaced. -/
def register (d : Descriptor) (replace : Bool := false) : Registration Unit := fun r ↦
  if r.isFrozen then .error (.frozen d.name) r
  else if r.contains d.name && !replace then .error (.duplicate d.name) r
  else .ok () (r.put d)

/-- Take in the calls of a table, one after the other. -/
def registerTable (t : Table) (replace : Bool := false) : Registration Unit :=
  t.calls.forM fun d ↦ register d replace

/-- Take nothing in from now on. -/
def freeze : Registration Unit := modify fun r ↦ { r with isFrozen := true }

/-- The registry of some descriptors, in order. -/
def ofList (ds : List Descriptor) : Except RegistryError Registry :=
  match ds.forM (register ·) empty with
  | .ok () r => .ok r
  | .error e _ => .error e

/-- The size of a registry and whether it is open. -/
def text (r : Registry) : String :=
  let state := if r.isFrozen then "frozen" else "open"
  s!"<AbiRegistry: {r.size} calls, {state}>"

end Registry

end CallGate.Abi
