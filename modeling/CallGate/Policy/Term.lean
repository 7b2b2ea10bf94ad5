import CallGate.Policy.Bound

/-!
# Terms for predicates and bounds

How a predicate or a bound is put together can itself be written down, as a term whose leaves are
host functions and whose nodes are the ways to combine. `build` carries a term out: parts first,
from left to right, then the whole, and it stops at the first thing that does not fit.

A term is what a policy is written in, and a built bound is what is evaluated; that they agree, in
verdict and in run, is what makes terms worth reading.
-/

namespace CallGate.Policy

open CallGate.Data

/-- How a predicate is put together. -/
inductive PredicateTerm where
  | leaf (x : Operand) (arity : Option Int)
  | and (left right : PredicateTerm)
  | or (left right : PredicateTerm)
  | allOf (parts : List PredicateTerm) (arity : Option Int)

namespace PredicateTerm

mutual

/-- Put a predicate together. -/
def build : PredicateTerm → Except PolicyError Predicate
  | leaf x arity => x.predicate arity
  | and left right => do
    let left ← left.build
    let right ← right.build
    left.and right
  | or left right => do
    let left ← left.build
    let right ← right.build
    left.or right
  | allOf parts arity => do Predicate.allOf (← buildAll parts) arity

def buildAll : List PredicateTerm → Except PolicyError (List Predicate)
  | [] => return []
  | t :: ts => do
    let p ← t.build
    return p :: (← buildAll ts)

end

end PredicateTerm

/-- An item of a list of predicates: a term, or an operand that is made a predicate only when all
terms of the list have been put together. -/
inductive ItemTerm where
  | operand (x : Operand)
  | predicate (t : PredicateTerm)

def ItemTerm.build : ItemTerm → Except PolicyError PredicateLike
  | operand x => .ok (.operand x)
  | predicate t => .predicate <$> t.build

/-- How a bound is put together. Types are given by name. -/
inductive BoundTerm where
  | predicate (t : PredicateTerm) (types : Option (List Value))
  | predicates (items : List ItemTerm) (types : Option (List Value))
  | and (left right : BoundTerm)
  | or (left right : BoundTerm)
  | allOf (parts : List BoundTerm)
  | anyOf (parts : List BoundTerm)
  | withTypes (inner : BoundTerm) (types : Option (List Value))

namespace BoundTerm

mutual

/-- Put a bound together. -/
def build : BoundTerm → Except PolicyError Bound
  | predicate t types => do Bound.ofPredicate (← t.build) types
  | predicates items types => do
    let items ← items.mapM ItemTerm.build
    let parts ← items.mapM PredicateLike.toPredicate
    Bound.ofPredicate (← Predicate.allOf parts) types
  | and left right => do
    let left ← left.build
    let right ← right.build
    left.and right
  | or left right => do
    let left ← left.build
    let right ← right.build
    left.or right
  | allOf parts => do Bound.allOf (← buildAll parts)
  | anyOf parts => do Bound.anyOf (← buildAll parts)
  | withTypes inner types => do (← inner.build).withTypes types

def buildAll : List BoundTerm → Except PolicyError (List Bound)
  | [] => return []
  | t :: ts => do
    let b ← t.build
    return b :: (← buildAll ts)

end

end BoundTerm

/-- How the condition of a statement is put together. -/
inductive ConditionTerm where
  | absent
  | operand (x : Operand)
  | bound (t : BoundTerm)

/-- Put together what has to be before a statement is made; an operand stays what it is. -/
def ConditionTerm.build : ConditionTerm → Except PolicyError BoundLike
  | absent => .ok .absent
  | operand x => .ok (.operand x)
  | bound t => .bound <$> t.build

end CallGate.Policy
