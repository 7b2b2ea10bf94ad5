import CallGate.Policy.Statement

/-!
# Guards

A guard holds the statements about one call, in order. It is asked with the arguments of a call and
answers with the actions of all statements that trigger, in order and with repetitions; which of
them wins is for the host to say.

Statements belong to a guard by the name of their call. A descriptor is not compared any further, so
that a statement about another descriptor of the same name is let in.
-/

namespace CallGate.Policy

open CallGate.Abi CallGate.Data

/-- The statements about a call. -/
structure Guard where
  call : Descriptor
  statements : List Statement := []
  name_statements : ∀ s ∈ statements, s.call.name = call.name := by simp

namespace Guard

/-- The guard of some statements, all of which have to be about the call. -/
def build (call : Descriptor) (statements : List Statement) : Except PolicyError Guard :=
  match h : statements.find? fun s ↦ s.call.name != call.name with
  | some s => .error (.foreignStatement s.call.name call.name)
  | none =>
    have name_statements : ∀ s ∈ statements, s.call.name = call.name := by
      simpa [List.find?_eq_none] using h
    .ok { call, statements, name_statements }

/-- The guard of some statements, of which the first one says which call it is. -/
def ofStatements : List Statement → Except PolicyError Guard
  | [] => .error .noStatements
  | s :: ss => build s.call (s :: ss)

def isEmpty (g : Guard) : Bool := g.statements.isEmpty

/-- The actions of the statements that trigger. -/
def triggered (args : List Value) : List Statement → Run (List Action)
  | [] => return []
  | s :: ss => do
    let holds ← s.triggers args
    let rest ← triggered args ss
    return if holds then s.action :: rest else rest

/-- Ask a guard about a call. Every statement is evaluated, unless one fails. -/
def evaluate (g : Guard) (args : List Value) : Run (List Action) := do
  expectArity (some g.call.name) g.call.arity args.length
  triggered args g.statements

/-- Whether some statement ends the guest on every call. -/
def isFatal (g : Guard) : Bool := g.statements.any Statement.isFatal

def text (g : Guard) : String := s!"<Guard {g.call.name}: {g.statements.length} statements>"

end Guard

end CallGate.Policy
