import CallGate.Data.Value

/-!
# Reports of failures

Every failure of this library can be reported in one form: a message, a code, perhaps a suggestion,
and a context of named facts. What failed is the `Cause`. A cause knows its usual message, code and
suggestion and which facts belong to it, and `Report.usual` is the report that says no more than
that.

A report can be made with other wording. `Report.make` puts what is usual wherever nothing was said;
an empty message, a code of zero and an empty suggestion count as nothing said. The facts of the
cause always enter the context, over others of the same name.

The facts of a cause, and whatever is said in a report, come from outside and are plain data. Two
things can then go wrong: an offset that is no integer cannot be shown in the usual message, and a
context that is no map cannot take in facts.

Codes are grouped: 1xxx for modules that cannot be scanned, 2xxx for policies that cannot be built,
3xxx for tables that cannot be loaded.
-/

namespace CallGate

open CallGate.Data

/-- What failed. -/
inductive Cause where
  /-- Nothing in particular. -/
  | general
  /-- A scan, for a reason that is not said. -/
  | scan
  | malformedBinary (offset detail : Value)
  | nonFunctionImport (module name kind : Value)
  | unresolvedType (module name typeIndex : Value)
  /-- Building a policy, for a reason that is not said. -/
  | policyBuild (abi : Value)
  | unknownAbi (abi : Value)
  | arityMismatch (abi expected actual : Value)
  | invalidAction (abi value : Value)
  | duplicateAbi (abi : Value)
  | frozenRegistry (abi : Value)
  | descriptorTable (source underlying : Value)

/-- Why a report cannot be made. -/
inductive ReportFault where
  /-- An offset of the given kind cannot be shown. -/
  | offset (kind : String)
  /-- Facts cannot be put into a context of the given kind, all at once or one under a name. -/
  | context (kind : String) (oneByOne : Bool)
  /-- The cause has no such fact. -/
  | unknownField (cause field : String)
deriving DecidableEq, Repr

def ReportFault.text : ReportFault → String
  | offset kind =>
      if kind = "str" ∨ kind = "float" then
        s!"Unknown format code 'x' for object of type '{kind}'"
      else
        s!"unsupported format string passed to {kind}.__format__"
  | context kind oneByOne =>
      if !oneByOne then s!"'{kind}' object has no attribute 'update'"
      else if kind = "list" then "list indices must be integers or slices, not str"
      else s!"'{kind}' object does not support item assignment"
  | unknownField cause field =>
      s!"{cause}.__init__() got an unexpected keyword argument '{field}'"

namespace Cause

/-- The name of a kind of failure. -/
def name : Cause → String
  | general => "WasiGuardError"
  | scan => "ScanError"
  | malformedBinary .. => "MalformedBinaryError"
  | nonFunctionImport .. => "NonFunctionImportError"
  | unresolvedType .. => "UnresolvedTypeError"
  | policyBuild _ => "PolicyBuildError"
  | unknownAbi _ => "UnknownAbiError"
  | arityMismatch .. => "ArityMismatchError"
  | invalidAction .. => "InvalidActionError"
  | duplicateAbi _ => "DuplicateAbiError"
  | frozenRegistry _ => "FrozenRegistryError"
  | descriptorTable .. => "DescriptorTableError"

/-- Whether a module could not be scanned. Such a module has to be rejected. -/
def isScan : Cause → Bool
  | scan | malformedBinary .. | nonFunctionImport .. | unresolvedType .. => true
  | _ => false

/-- Whether a policy could not be built. -/
def isPolicyBuild : Cause → Bool
  | policyBuild _ | unknownAbi _ | arityMismatch .. | invalidAction .. | duplicateAbi _
  | frozenRegistry _ => true
  | _ => false

/-- The facts that belong to a cause, in order. -/
def facts : Cause → List (String × Value)
  | general | scan => []
  | malformedBinary offset detail => [("offset", offset), ("detail", detail)]
  | nonFunctionImport module name kind => [("module", module), ("name", name), ("kind", kind)]
  | unresolvedType module name typeIndex =>
      [("module", module), ("name", name), ("type_index", typeIndex)]
  | policyBuild abi | unknownAbi abi | duplicateAbi abi | frozenRegistry abi => [("abi", abi)]
  | arityMismatch abi expected actual =>
      [("abi", abi), ("expected", expected), ("actual", actual)]
  | invalidAction abi value => [("abi", abi), ("value", value)]
  | descriptorTable source underlying =>
      [("source", source), ("underlying_error", underlying)]

/-! ## Usual wording -/

/-- An integer in hexadecimal, with a prefix between its sign and its digits. -/
def hexadecimal (n : Int) : String :=
  let digits := String.ofList (Nat.toDigits 16 n.natAbs)
  if n < 0 then "-0x" ++ digits else "0x" ++ digits

/-- An offset in hexadecimal. Only a whole number has such a form. -/
def offsetText? : Value → Option String
  | .int n => some (hexadecimal n)
  | .bool b => some (hexadecimal (if b then 1 else 0))
  | _ => none

/-- The usual message. -/
def message : Cause → String
  | general | scan | policyBuild _ => ""
  | malformedBinary offset detail =>
      let place := (offsetText? offset).getD offset.display
      s!"Malformed module at offset {place}: {detail.display}"
  | nonFunctionImport module name kind =>
      s!"Unsupported {kind.display} import: {module.display}.{name.display}"
  | unresolvedType module name typeIndex =>
      s!"Import {module.display}.{name.display} references undeclared type {typeIndex.display}"
  | unknownAbi abi => s!"Unknown WASI ABI: {abi.display}"
  | arityMismatch abi expected actual =>
      let target := if abi.isTruthy then abi.display else "bound"
      s!"Arity mismatch for {target}: expected {expected.display} arguments, got {actual.display}"
  | invalidAction _ value => s!"Invalid action: {value.literal}"
  | duplicateAbi abi => s!"ABI already registered: {abi.display}"
  | frozenRegistry abi => s!"Cannot register {abi.display}: registry is frozen"
  | descriptorTable source underlying =>
      s!"Invalid descriptor table {source.display}: {underlying.display}"

/-- Why the usual message cannot be written. -/
def messageFault? : Cause → Option ReportFault
  | malformedBinary offset _ =>
    if (offsetText? offset).isSome then none else some (.offset offset.kindName)
  | _ => none

/-- The usual code, if the cause has one. -/
def code? : Cause → Option Int
  | general | scan | policyBuild _ => none
  | malformedBinary .. => some 1001
  | nonFunctionImport .. => some 1002
  | unresolvedType .. => some 1003
  | unknownAbi _ => some 2001
  | arityMismatch .. => some 2002
  | invalidAction .. => some 2003
  | duplicateAbi _ => some 2004
  | frozenRegistry _ => some 2005
  | descriptorTable .. => some 3001

/-- The usual suggestion, if the cause has one. -/
def suggestion? : Cause → Option String
  | nonFunctionImport .. => some "Only function imports can be screened; reject the module"
  | unknownAbi _ => some "Check the call name or load a registry that declares it"
  | invalidAction .. => some "Use allow, log, kill or ret_errno(<0..65535>)"
  | frozenRegistry _ => some "Build a new AbiRegistry instead of extending a frozen one"
  | _ => none

/-- The entries of a context with the facts of a cause among them. -/
def addFacts (c : Cause) (context : List (Value × Value)) : List (Value × Value) :=
  c.facts.foldl (fun es fact ↦ Value.insert (.text fact.1) fact.2 es) context

end Cause

/-! ## Reports -/

/-- What is said about a failure. -/
structure Wording where
  message : Value := .text ""
  code : Value := .int 0
  suggestion : Value := .null
  context : Value := .map []

/-- A failure as it is reported. -/
structure Report extends Wording where
  cause : Cause

namespace Report

/-- The report of a cause that says what is usual. -/
def usual (cause : Cause) : Report where
  cause
  message := .text cause.message
  code := .int (cause.code?.getD 0)
  suggestion := cause.suggestion?.elim .null .text
  context := .map (cause.addFacts [])

/-- The message of a report: the usual one if there is one and nothing was said. -/
def messageOf (cause : Cause) (said : Value) : Except ReportFault Value :=
  if said.isTruthy || cause.code?.isNone then .ok said
  else
    match cause.messageFault? with
    | some fault => .error fault
    | none => .ok (.text cause.message)

/-- The code of a report: the usual one in place of zero. -/
def codeOf (cause : Cause) (said : Value) : Value :=
  if said.equal (.int 0) then cause.code?.elim said .int else said

/-- The suggestion of a report: the usual one if nothing was said. -/
def suggestionOf (cause : Cause) (said : Value) : Value :=
  if said.isTruthy then said else cause.suggestion?.elim said .text

/-- The context of a report. A cause without facts lets any context be. -/
def contextOf (cause : Cause) (said : Value) : Except ReportFault Value :=
  match cause.facts, said with
  | [], said => .ok said
  | _, .map entries => .ok (.map (cause.addFacts entries))
  | _, said => .error (.context said.kindName cause.isPolicyBuild)

/-- The report of a cause with some wording. -/
def make (cause : Cause) (said : Wording := {}) : Except ReportFault Report := do
  let message ← messageOf cause said.message
  let context ← contextOf cause said.context
  return {
    cause, message, context
    code := codeOf cause said.code
    suggestion := suggestionOf cause said.suggestion
  }

/-- A report in full sentences. -/
def text (r : Report) : String :=
  let headline := s!"[E{r.code.display}] {r.message.display}"
  if r.suggestion.isTruthy then s!"{headline}\nSuggestion: {r.suggestion.display}" else headline

/-- A report as a record. A report of nothing in particular leaves out its suggestion and shows its
code as in a sentence. -/
def literal (r : Report) : String :=
  let facts := r.cause.facts.map fun (name, v) ↦ (name, v.literal)
  let fields := match r.cause with
    | .general =>
      [("message", r.message.literal), ("code", r.code.display), ("context", r.context.literal)]
    | _ =>
      [("message", r.message.literal), ("code", r.code.literal),
        ("suggestion", r.suggestion.literal), ("context", r.context.literal)] ++ facts
  let items := fields.map fun (name, shown) ↦ name ++ "=" ++ shown
  r.cause.name ++ "(" ++ ", ".intercalate items ++ ")"

/-- What a report says, in order. -/
def content (r : Report) : List Value :=
  [r.message, r.code, r.suggestion, r.context] ++ r.cause.facts.map (·.2)

/-- Whether two reports say the same. The order of the facts in the context does not matter. -/
def same (r s : Report) : Bool :=
  r.cause.name == s.cause.name && Value.sameItems r.content s.content

end Report

end CallGate
