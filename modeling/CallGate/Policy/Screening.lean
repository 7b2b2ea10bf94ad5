import CallGate.Policy
import CallGate.Wasm.Import

/-!
# Screening modules

Before a module is loaded, its imports are compared with the calls that the policy kills on every
occasion. A module that imports one of them is rejected; so is a module that cannot be scanned.
-/

namespace CallGate.Policy

/-- What was found in a module: all functions it imports, and those it may not import. -/
structure Screening where
  imports : List Wasm.Import
  forbidden : List Wasm.Import

namespace Screening

/-- Whether the module imports something it may not. -/
def isRejected (s : Screening) : Bool := !s.forbidden.isEmpty

end Screening

/-- Screen a module by its imports. -/
def screen (p : Policy) (bytes : List UInt8) : Except Wasm.ScanError Screening := do
  let imports ← Wasm.importsOf bytes
  return ⟨imports, Wasm.Import.forbidden p.fatalNames imports⟩

end CallGate.Policy
