import CallGate.Abi.ArgType
import CallGate.Policy.HostFunction

/-!
# Predicates on arguments

A predicate is a truth-valued function of the arguments of a call that knows how many arguments it
takes. Host functions are the leaves. Conjunctions and disjunctions are evaluated from left to right
and stop as soon as the answer is known, so it shows in the run which leaves were called. A typed
predicate reads its arguments at declared types before it passes them on, and whatever is inside
reads them again from there.

The items of a list are evaluated in a generator, those of `both` and `either` are not. It makes no
difference to what is called and what is answered, but it does to one class of failures.

The number of arguments is compared when predicates are put together, by `Predicate.and`,
`Predicate.or` and `Predicate.allOf`, and a typed predicate compares it once more with the arguments
it is given.
-/

namespace CallGate.Policy

open CallGate.Abi CallGate.Data

/-- The types at which arguments are read; an argument without a type is taken as it is. -/
abbrev ParamTypes := List (Option ArgType)

/-- Read a value at a type, if there is one. -/
def readAs (type : Option ArgType) (v : Value) : Except PolicyError Value :=
  match type with
  | none => .ok v
  | some type =>
    match v.toInteger with
    | .ok n => .ok (.int (type.reduce n))
    | .error fault => .error (.argument fault)

/-- Read each argument at its type, from left to right. Where there is no type, an argument need not
even be a number. -/
def ParamTypes.read (types : ParamTypes) (args : List Value) : Except PolicyError (List Value) :=
  (types.zip args).mapM fun (type, v) ↦ readAs type v

/-- The written form of a list of types. -/
def ParamTypes.text (types : ParamTypes) : String :=
  match types.map fun type ↦ type.elim "None" ArgType.literal with
  | [one] => "(" ++ one ++ ",)"
  | many => "(" ++ ", ".intercalate many ++ ")"

/-- A condition on a fixed number of arguments. -/
inductive Predicate where
  | function (f : HostFunction) (arity : Int)
  | both (left right : Predicate)
  | either (left right : Predicate)
  | all (parts : List Predicate) (arity : Int)
  | typed (inner : Predicate) (types : ParamTypes)

namespace Predicate

/-- The number of arguments a predicate takes. -/
def arity : Predicate → Int
  | function _ arity => arity
  | both left _ => left.arity
  | either left _ => left.arity
  | all _ arity => arity
  | typed inner _ => inner.arity

/-! ## Evaluation -/

mutual

/-- Evaluate a predicate. -/
def holds (args : List Value) : Predicate → Run Bool
  | function f _ => f.call args
  | both left right => do
    if ← left.holds args then right.holds args else return false
  | either left right => do
    if ← left.holds args then return true else right.holds args
  | all parts _ => allHold args parts
  | typed inner types => do
    expectArity none inner.arity args.length
    inner.holds (← types.read args)

/-- Evaluate predicates one after the other, up to the first that does not hold. The answers come
from a generator. -/
def allHold (args : List Value) : List Predicate → Run Bool
  | [] => return true
  | p :: ps => do
    if ← (p.holds args).inGenerator then allHold args ps else return false

end

/-! ## Written form -/

mutual

/-- The written form of a predicate. -/
def text : Predicate → String
  | function f arity => s!"FunctionPredicate({f.shownName}, arity={arity})"
  | both left right => s!"({left.text} and {right.text})"
  | either left right => s!"({left.text} or {right.text})"
  | all parts _ => "AllOf([" ++ ", ".intercalate (texts parts) ++ "])"
  | typed inner types => s!"Bound({inner.text}, params={types.text})"

def texts : List Predicate → List String
  | [] => []
  | p :: ps => p.text :: texts ps

end

/-! ## Putting predicates together -/

/-- Both predicates have to hold. -/
def and (left right : Predicate) : Except PolicyError Predicate := do
  expectArity none left.arity right.arity
  return both left right

/-- One of two predicates has to hold. -/
def or (left right : Predicate) : Except PolicyError Predicate := do
  expectArity none left.arity right.arity
  return either left right

/-- All predicates of a list have to hold. The arity is that of the first one unless it is given,
and has to be given for an empty list. -/
def allOf (parts : List Predicate) (arity : Option Int := none) : Except PolicyError Predicate := do
  let some arity := arity <|> parts.head?.map Predicate.arity | throw .noPredicates
  parts.forM fun p ↦ expectArity none arity p.arity
  return all parts arity

end Predicate

/-- What is handed over to be called: a host function, or a value that turns out not to be one. -/
inductive Operand where
  | function (f : HostFunction)
  | value (v : Value)

/-- The predicate of a host function. Its arity is found out unless it is given. -/
def Operand.predicate (arity : Option Int := none) : Operand → Except PolicyError Predicate
  | function f =>
    match arity with
    | some n => .ok (.function f n)
    | none => (fun n ↦ .function f n) <$> f.arity
  | value v => .error (.notCallable v)

/-- A predicate, or something that is still to be made one. -/
inductive PredicateLike where
  | operand (x : Operand)
  | predicate (p : Predicate)

def PredicateLike.toPredicate : PredicateLike → Except PolicyError Predicate
  | operand x => x.predicate
  | predicate p => .ok p

end CallGate.Policy
