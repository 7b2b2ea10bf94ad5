import CallGate.Policy.Predicate

/-!
# Bounds

A bound is the condition of a statement: a predicate, and perhaps the types at which the arguments
are to be read before the predicate sees them. Bounds are combined like predicates, and each side
keeps its own types: a side with types becomes a typed predicate, which applies them to nothing but
its own arguments.

Types are given by name. That every name is one is found out before their number is compared with
the arity.
-/

namespace CallGate.Policy

open CallGate.Abi CallGate.Data

/-- A condition on the arguments of a call. If types are declared, there is one for each
argument. -/
structure Bound where
  predicate : Predicate
  types : Option ParamTypes := none
  length_types : ∀ ts ∈ types, (ts.length : Int) = predicate.arity := by simp

namespace Bound

/-- The number of arguments a bound takes. -/
def arity (b : Bound) : Int := b.predicate.arity

/-! ## Construction -/

/-- The type that a value names; null leaves an argument as it is. -/
def typeOfValue : Value → Except PolicyError (Option ArgType)
  | .null => .ok none
  | v =>
    match ArgType.ofValue? v with
    | some type => .ok (some type)
    | none => .error (.unknownType v)

/-- A predicate with the types at which it reads its arguments. -/
def ofPredicate (p : Predicate) (names : Option (List Value) := none) :
    Except PolicyError Bound :=
  match names with
  | none => .ok { predicate := p }
  | some names => do
    let types ← names.mapM typeOfValue
    if h : p.arity = types.length then
      return { predicate := p, types := some types, length_types := by simp [h] }
    else
      throw (.arityMismatch none p.arity types.length)

/-- The same predicate with other types. -/
def withTypes (b : Bound) (names : Option (List Value)) : Except PolicyError Bound :=
  ofPredicate b.predicate names

/-- A bound seen as a predicate: if it has types, they are applied first. -/
def toPredicate (b : Bound) : Predicate :=
  match b.types with
  | none => b.predicate
  | some types => .typed b.predicate types

/-- Both bounds have to hold. -/
def and (left right : Bound) : Except PolicyError Bound := do
  ofPredicate (← left.toPredicate.and right.toPredicate)

/-- One of two bounds has to hold. -/
def or (left right : Bound) : Except PolicyError Bound := do
  ofPredicate (← left.toPredicate.or right.toPredicate)

/-- All bounds of a list have to hold, combined from the left. -/
def allOf : List Bound → Except PolicyError Bound
  | [] => .error (.noBounds .allOf)
  | b :: bs => bs.foldlM and b

/-- One of the bounds of a list has to hold, combined from the left. -/
def anyOf : List Bound → Except PolicyError Bound
  | [] => .error (.noBounds .anyOf)
  | b :: bs => bs.foldlM or b

/-! ## Evaluation -/

/-- The values that the predicate of a bound sees in place of the arguments. -/
def read (b : Bound) (args : List Value) : Except PolicyError (List Value) := do
  expectArity none b.arity args.length
  match b.types with
  | none => return args
  | some types => types.read args

/-- Evaluate a bound on the arguments of a call. -/
def holds (b : Bound) (args : List Value) : Run Bool := do
  b.predicate.holds (← b.read args)

/-- The written form of a bound. -/
def text (b : Bound) : String :=
  let types := b.types.elim "None" ParamTypes.text
  s!"Bound({b.predicate.text}, params={types})"

end Bound

/-- A bound, something that is still to be made one, or no bound. -/
inductive BoundLike where
  | absent
  | bound (b : Bound)
  | operand (x : Operand)

/-- The bound that is meant, if any. Null is no bound. -/
def BoundLike.toBound? : BoundLike → Except PolicyError (Option Bound)
  | absent | operand (.value .null) => .ok none
  | bound b => .ok (some b)
  | operand x => do
    return some (← Bound.ofPredicate (← x.predicate))

end CallGate.Policy
