import CallGate.Report

/-!
# Reading reports from plain data

A report can be given as a record of its wording and of the facts of its cause, next to the name of
the cause. Whatever is left out has its default: no text, zero, no suggestion, an empty context. A
key that is neither wording nor a fact of the cause is refused.
-/

namespace CallGate

open CallGate.Data

/-- The cause of a given name. Its facts are found by `fact`, which is told the key and the default;
any other name is that of a failure in general. -/
def Cause.ofName (name : String) (fact : String → Value → Value) : Cause :=
  let text (key : String) : Value := fact key (.text "")
  let number (key : String) : Value := fact key (.int 0)
  match name with
  | "ScanError" => .scan
  | "MalformedBinaryError" => .malformedBinary (number "offset") (text "detail")
  | "NonFunctionImportError" => .nonFunctionImport (text "module") (text "name") (text "kind")
  | "UnresolvedTypeError" => .unresolvedType (text "module") (text "name") (number "type_index")
  | "PolicyBuildError" => .policyBuild (text "abi")
  | "UnknownAbiError" => .unknownAbi (text "abi")
  | "ArityMismatchError" => .arityMismatch (text "abi") (number "expected") (number "actual")
  | "InvalidActionError" => .invalidAction (text "abi") (text "value")
  | "DuplicateAbiError" => .duplicateAbi (text "abi")
  | "FrozenRegistryError" => .frozenRegistry (text "abi")
  | "DescriptorTableError" => .descriptorTable (text "source") (text "underlying_error")
  | _ => .general

namespace Report

/-- The keys of the wording of a report. -/
def wordingKeys : List String := ["message", "code", "suggestion", "context"]

/-- The report of a cause, given by its name, from a record. -/
def ofFields (name : String) (fields : List (Value × Value)) : Except ReportFault Report :=
  let field (key : String) (default : Value) : Value := (Value.field? key fields).getD default
  let cause := Cause.ofName name field
  let known := wordingKeys ++ cause.facts.map (·.1)
  let unknown? := fields.find? fun e ↦ !known.any fun key ↦ e.1.equal (.text key)
  match unknown? with
  | some (key, _) => .error (.unknownField cause.name key.display)
  | none =>
    make cause {
      message := field "message" (.text "")
      code := field "code" (.int 0)
      suggestion := field "suggestion" .null
      context := field "context" (.map [])
    }

end Report

end CallGate
