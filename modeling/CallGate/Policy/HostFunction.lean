import CallGate.Policy.Error

/-!
# Host functions and what they do when called

The leaves of every condition are functions of the host. Nothing is known of one but its name, its
parameters, and how it responds to arguments: it may leave marks, and it answers or fails.

A `Run` is what an evaluation does: the calls it makes and the marks that are left, in order, and
its outcome. Two evaluations with the same run cannot be told apart, not even by a host that watches
its own functions.
-/

namespace CallGate.Policy

open CallGate.Data

/-- How a parameter of a host function can be given. -/
inductive ParamKind where
  | positionalOnly | positional | variadic | keywordOnly | keywordVariadic
deriving DecidableEq, Repr

/-- What a host function does on some arguments. -/
structure Response where
  marks : List Value
  answer : Except HostFault Bool

/-- A function of the host. Its parameters may be unknown. -/
structure HostFunction where
  name : Option String := none
  params : Option (List ParamKind)
  respond : List Value → Response

namespace HostFunction

/-- The written form of a host function. -/
def text (f : HostFunction) : String :=
  match f.name with
  | some name => s!"<fn {name}>"
  | none => "<fn>"

/-- The name of a host function, or its written form if it has none. -/
def shownName (f : HostFunction) : String := f.name.getD f.text

/-- The number of arguments a host function takes: its positional parameters are counted. -/
def arity (f : HostFunction) : Except PolicyError Nat :=
  match f.params with
  | none => .error (.noSignature f.text)
  | some params =>
    if params.contains .variadic then .error (.variadic f.text)
    else .ok (params.countP fun kind ↦ kind == .positionalOnly || kind == .positional)

end HostFunction

/-! ## Runs -/

/-- Something a host can observe. -/
inductive Event where
  | called (function : HostFunction) (args : List Value)
  | marked (mark : Value)

def Event.mark? : Event → Option Value
  | marked mark => some mark
  | called _ _ => none

/-- An evaluation: what happened, in order, and how it ended. -/
structure Run (α : Type) where
  events : List Event
  outcome : Except PolicyError α

namespace Run

variable {α β : Type}

/-- The marks that were left, in order. -/
def marks (r : Run α) : List Value := r.events.filterMap Event.mark?

/-- An outcome without anything happening. -/
def ofExcept (outcome : Except PolicyError α) : Run α := ⟨[], outcome⟩

/-- One evaluation and then another, unless the first one fails. -/
protected def bind (r : Run α) (f : α → Run β) : Run β :=
  match r.outcome with
  | .error e => ⟨r.events, .error e⟩
  | .ok a => ⟨r.events ++ (f a).events, (f a).outcome⟩

instance : Monad Run where
  pure a := ⟨[], .ok a⟩
  bind := Run.bind

instance : MonadLift (Except PolicyError) Run := ⟨ofExcept⟩

/-- An evaluation in a generator. It happens just the same, but what it fails with has to get out of
the generator. -/
def inGenerator (r : Run α) : Run α := ⟨r.events, r.outcome.mapError .outOfGenerator⟩

end Run

/-- Call a host function. -/
def HostFunction.call (f : HostFunction) (args : List Value) : Run Bool :=
  let response := f.respond args
  ⟨.called f args :: response.marks.map .marked, response.answer.mapError .host⟩

end CallGate.Policy
