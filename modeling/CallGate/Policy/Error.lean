import CallGate.Abi.Registry
import CallGate.Data.Operation
import CallGate.Data.Position
import CallGate.Policy.Action.Reading

/-!
# What can go wrong with a policy

Failures while a policy is put together, and the few that are left when it is evaluated: arguments
that do not fit their call, arguments that cannot be read at a declared type, and whatever a host
function raises. What a host function raises is passed on as it is, except through a generator,
which one class of exceptions does not get out of (`HostFault.outOfGenerator`).
-/

namespace CallGate.Policy

open CallGate.Data

/-- The class of an exception of the host. -/
structure ExceptionClass where
  name : String
  /-- Whether it is the class by which an iterator says that it has nothing left, or one below. -/
  endsIteration : Bool := false
deriving DecidableEq, Repr

namespace ExceptionClass

def valueError : ExceptionClass := ⟨"ValueError", false⟩
def indexError : ExceptionClass := ⟨"IndexError", false⟩
def typeError : ExceptionClass := ⟨"TypeError", false⟩
def overflowError : ExceptionClass := ⟨"OverflowError", false⟩
def memoryError : ExceptionClass := ⟨"MemoryError", false⟩
def runtimeError : ExceptionClass := ⟨"RuntimeError", false⟩
def stopIteration : ExceptionClass := ⟨"StopIteration", true⟩

end ExceptionClass

/-- An exception that a host function raises by itself. -/
structure HostException where
  cls : ExceptionClass
  message : String
deriving DecidableEq, Repr

/-- A failure of a host function. -/
inductive HostFault where
  /-- The function gave up. -/
  | raised (exception : HostException)
  /-- The function asked for an argument that it was not given. -/
  | position (fault : PositionFault)
  /-- The function asked for an argument by a value of the given kind, which is no position. -/
  | positionKind (kind : String)
  /-- The function did something that values of these kinds are not for. -/
  | operation (fault : OperationFault)
deriving DecidableEq, Repr

namespace HostFault

def text : HostFault → String
  | raised exception => exception.message
  | position fault => fault.text "tuple "
  | positionKind kind => s!"tuple indices must be integers or slices, not {kind}"
  | operation fault => fault.text

/-- The class of the exception that a failure comes with. -/
def exceptionClass : HostFault → ExceptionClass
  | raised exception => exception.cls
  | position _ => .indexError
  | positionKind _ => .typeError
  | operation (.operands ..) | operation (.concatenation ..) | operation (.repetition _)
  | operation (.order ..) => .typeError
  | operation .conversion | operation .index => .overflowError
  | operation .size => .memoryError

/-- What becomes of a failure in a generator. Whoever takes values out of one would take the end of
an iteration for the end of the values, so a failure of that class comes out as one of another. -/
def outOfGenerator (fault : HostFault) : HostFault :=
  if fault.exceptionClass.endsIteration then
    raised ⟨.runtimeError, "generator raised StopIteration"⟩
  else fault

end HostFault

/-- What is reported of a text or a value that is no action. -/
def InvalidAction.cause (action : InvalidAction) : Cause :=
  .invalidAction (.text "") (.ofPoints action.spelling)

/-- How several bounds were to be made one. -/
inductive Folding where
  | allOf | anyOf
deriving DecidableEq, Repr

def Folding.word : Folding → String
  | allOf => "all_of"
  | anyOf => "any_of"

/-- A failure of building or evaluating a policy. -/
inductive PolicyError where
  /-- The registry has no call of that name. -/
  | unknownAbi (name : String)
  /-- Arguments, types or predicates do not come in the expected number; `call` is the call they
  were meant for, if it is known. -/
  | arityMismatch (call : Option String) (expected actual : Int)
  | invalidAction (action : InvalidAction)
  /-- The value names no type. -/
  | unknownType (type : Value)
  /-- The value cannot be called. -/
  | notCallable (value : Value)
  /-- Nothing is known of the parameters of a host function. -/
  | noSignature (function : String)
  /-- A host function takes any number of arguments. -/
  | variadic (function : String)
  /-- A list of no predicates, of which nobody said how many arguments it takes. -/
  | noPredicates
  | noBounds (folding : Folding)
  /-- A statement about one call was put into the guard of another. -/
  | foreignStatement (call guard : String)
  | noStatements
  /-- A guard of one call was filed under another. -/
  | misfiledGuard (call key : String)
  /-- An argument cannot be read as an integer. -/
  | argument (fault : IntegerFault)
  | host (fault : HostFault)

namespace PolicyError

/-- What is reported, for the failures that are reported in full. -/
def cause? : PolicyError → Option Cause
  | unknownAbi name => some (.unknownAbi (.text name))
  | arityMismatch call expected actual =>
      some (.arityMismatch (.text (call.getD "")) (.int expected) (.int actual))
  | invalidAction action => some action.cause
  | _ => none

/-- The message of a failure. -/
def text : PolicyError → String
  | unknownAbi name => (Cause.unknownAbi (.text name)).message
  | arityMismatch call expected actual =>
      (Cause.arityMismatch (.text (call.getD "")) (.int expected) (.int actual)).message
  | invalidAction action => action.cause.message
  | unknownType type => Abi.ArgType.unknownText type
  | notCallable value => s!"Predicate must be callable, got {value.literal}"
  | noSignature function => s!"Cannot infer arity of {function}; pass arity explicitly"
  | variadic function => s!"Cannot infer arity of {function} (takes *args); pass arity explicitly"
  | noPredicates => "An empty predicate list needs an explicit arity"
  | noBounds folding => s!"{folding.word} needs at least one bound"
  | foreignStatement call guard => s!"Statement for {call} cannot be added to the {guard} guard"
  | noStatements => "from_statements needs at least one statement"
  | misfiledGuard call key => s!"Guard for {call} is filed under {key}"
  | argument fault => fault.text
  | host fault => fault.text

/-- What becomes of a failure in a generator. -/
def outOfGenerator : PolicyError → PolicyError
  | host fault => host fault.outOfGenerator
  | e => e

end PolicyError

/-- The pieces have to come in the expected number. -/
def expectArity (call : Option String) (expected actual : Int) : Except PolicyError Unit :=
  if expected = actual then .ok () else .error (.arityMismatch call expected actual)

end CallGate.Policy
