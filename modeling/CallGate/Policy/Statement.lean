import CallGate.Abi.Descriptor
import CallGate.Policy.Bound

/-!
# Statements

A statement is one rule about one call: if the arguments satisfy the bound, the action is taken. A
statement without a bound is unconditional. The bound takes as many arguments as the call has; this
is settled when the statement is made, and editing a statement makes a new one that is checked in
the same way.
-/

namespace CallGate.Policy

open CallGate.Abi CallGate.Data

/-- A rule about a call. -/
structure Statement where
  call : Descriptor
  action : Action
  bound : Option Bound := none
  arity_bound : ∀ b ∈ bound, b.arity = call.arity := by simp

namespace Statement

/-- A rule about a call with a bound, whose arity has to fit. -/
def build (call : Descriptor) (action : Action) (bound : Option Bound) :
    Except PolicyError Statement :=
  match bound with
  | none => .ok { call, action }
  | some b =>
    if h : b.arity = call.arity then
      .ok { call, action, bound := some b, arity_bound := by simp [h] }
    else
      .error (.arityMismatch (some call.name) call.arity b.arity)

/-- The unconditional rule about a call. -/
def unconditional (call : Descriptor) (action : Action) : Statement := { call, action }

def isUnconditional (s : Statement) : Bool := s.bound.isNone

/-- Whether the rule ends the guest on every call, whatever the arguments. -/
def isFatal (s : Statement) : Bool := s.action.isKill && s.isUnconditional

/-- The types that the bound declares. -/
def types (s : Statement) : Option ParamTypes := s.bound.bind (·.types)

/-- Evaluate the bound on the arguments of a call. Without a bound there is nothing to evaluate, but
the arguments have to be as many as the call has. -/
def triggers (s : Statement) (args : List Value) : Run Bool := do
  expectArity (some s.call.name) s.call.arity args.length
  match s.bound with
  | none => return true
  | some b => b.holds args

/-- The written form of a rule, which does not show its bound. -/
def text (s : Statement) : String :=
  let condition := if s.isUnconditional then "" else " where <bound>"
  s!"{s.action.text} {s.call.name}{condition}"

/-! ## Edits -/

/-- The same rule with another bound, or with none. -/
def withBound (s : Statement) (bound : BoundLike) : Except PolicyError Statement := do
  build s.call s.action (← bound.toBound?)

/-- The same rule, reading its arguments as other types. There has to be a type for each argument of
the call also where there is no bound that could use them. -/
def withTypes (s : Statement) (names : List Value) : Except PolicyError Statement := do
  expectArity (some s.call.name) s.call.arity names.length
  match s.bound with
  | none => return s
  | some b => build s.call s.action (some (← b.withTypes names))

/-- A change to a statement. -/
inductive Edit where
  | bound (b : BoundLike)
  | types (names : List Value)

def Edit.apply (s : Statement) : Edit → Except PolicyError Statement
  | bound b => s.withBound b
  | types names => s.withTypes names

/-- Whether a change, if it is possible, leaves the statement untouched: an unconditional one reads
no arguments. -/
def Edit.isVoid (s : Statement) : Edit → Bool
  | bound _ => false
  | types _ => s.isUnconditional

end Statement

end CallGate.Policy
