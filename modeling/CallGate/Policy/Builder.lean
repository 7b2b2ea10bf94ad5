import CallGate.Policy.Action.Reading
import CallGate.Policy

/-!
# Building a policy from data

A builder is a registry, a default action, and a log of the statements that were added, in order.
Nothing else is kept: the guards are made from the log when the policy is, so that building neither
changes the builder nor depends on anything but the log.

`Building` is what is done with a builder. A failing step leaves everything that was done before it;
within a list of entries that means the entries before the first one that fails.
-/

namespace CallGate.Policy

open CallGate.Abi CallGate.Data

/-- An action, or a value that spells one. -/
inductive ActionLike where
  | action (a : Action)
  | value (v : Value)

def ActionLike.toAction : ActionLike → Except PolicyError Action
  | action a => .ok a
  | value v => (Action.ofSpelling v).mapError .invalidAction

/-- A statement that is still to be made: its condition and its action. -/
structure Entry where
  bound : BoundLike
  action : ActionLike

/-- A policy in the making. -/
structure Builder where
  registry : Registry
  default : Action := .default
  log : List Statement := []

/-- A change to a builder that may fail on the way. -/
abbrev Building := EStateM PolicyError Builder

namespace Builder

/-- A builder without statements. The default action is that of a policy that names none, unless it
is given. -/
def start (registry : Registry := .default) (default : Option ActionLike := none) :
    Except PolicyError Builder :=
  match default with
  | none => .ok { registry }
  | some a => do return { registry, default := ← a.toAction }

/-- The statement that an entry makes about a call: the call is looked up first, then the action is
read, then the bound. -/
def statementOf (registry : Registry) (name : String) (entry : Entry) :
    Except PolicyError Statement := do
  let some call := registry.find? name | throw (.unknownAbi name)
  let action ← entry.action.toAction
  Statement.build call action (← entry.bound.toBound?)

/-- Set the default action. -/
def setDefault (action : ActionLike) : Building Unit := fun b ↦
  match action.toAction with
  | .ok a => .ok () { b with default := a }
  | .error e => .error e b

/-- Add a statement about a call. -/
def addStatement (name : String) (entry : Entry) : Building Unit := fun b ↦
  match statementOf b.registry name entry with
  | .ok s => .ok () { b with log := b.log ++ [s] }
  | .error e => .error e b

/-- Add statements about a call, one after the other. -/
def addEntries (name : String) (entries : List Entry) : Building Unit :=
  entries.forM (addStatement name)

/-- The calls that have statements, in the order of their first one, each with its guard. -/
def guards (b : Builder) : Except PolicyError GuardTable := do
  let names := (b.log.map (·.call.name)).eraseDups
  return .ofList <| ← names.mapM fun name ↦ do
    let some call := b.registry.find? name | throw (.unknownAbi name)
    return (name, ← Guard.build call (b.log.filter (·.call.name == name)))

/-- The policy of all statements so far. -/
def build (b : Builder) : Except PolicyError Policy := do
  Policy.build b.default (← b.guards) b.registry

end Builder

/-- The policy of some entries about calls. A call may come up more than once. -/
def ofEntries (entries : List (String × List Entry)) (default : Option ActionLike := none)
    (registry : Registry := .default) : Except PolicyError Policy := do
  let b ← Builder.start registry default
  match entries.forM (fun e ↦ Builder.addEntries e.1 e.2) b with
  | .ok () b => b.build
  | .error e _ => throw e

end CallGate.Policy
