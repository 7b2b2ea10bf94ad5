import CallGate.Abi.Builtin
import CallGate.Data.Keyed
import CallGate.Policy.Guard

/-!
# Policies

A policy decides about every call of a registry: by the guard filed under the name of the call, or
by the default action if there is none or nothing in it triggers. A guard without statements is as
good as none and is not kept.

`fatalNames` are the calls that end the guest whatever their arguments. They are read off the guards
without evaluating anything: an unconditional kill puts its call on the list, and so does a default
of kill for a call without statements. A kill with a bound never does, since the arguments are not
known before the call happens.
-/

namespace CallGate.Policy

open CallGate.Abi

/-! ## Guard tables -/

/-- Guards filed under names, each name once. -/
structure GuardTable where
  entries : List (String × Guard)
  nodup_names : (entries.map (·.1)).Nodup

namespace GuardTable

/-- The table without guards. -/
def empty : GuardTable := ⟨[], List.nodup_nil⟩

/-- The names, in the order in which they were first used. -/
def names (t : GuardTable) : List String := t.entries.map (·.1)

/-- File a guard. A name that is there already keeps its place. -/
def insert (name : String) (g : Guard) (t : GuardTable) : GuardTable where
  entries := Data.place (·.1) (name, g) t.entries
  nodup_names := Data.nodup_map_place _ (name, g) t.nodup_names

/-- File guards one after the other. -/
def ofList (entries : List (String × Guard)) : GuardTable :=
  entries.foldl (fun t e ↦ t.insert e.1 e.2) empty

/-- The guard filed under a name. -/
def find? (t : GuardTable) (name : String) : Option Guard :=
  (t.entries.find? (·.1 == name)).map (·.2)

/-- The table without the guards that have no statements. -/
def withoutEmpty (t : GuardTable) : GuardTable where
  entries := t.entries.filter fun e ↦ !e.2.isEmpty
  nodup_names := t.nodup_names.sublist (List.filter_sublist.map _)

/-- Whether there are statements filed under a name. -/
def covers (t : GuardTable) (name : String) : Bool := (t.find? name).any fun g ↦ !g.isEmpty

/-- The calls among `names` and in the table that end the guest whatever their arguments, each
once. -/
def fatalNames (t : GuardTable) (default : Action) (names : List String) : List String :=
  let guarded := (t.entries.filter (·.2.isFatal)).map (·.1)
  let unguarded := if default.isKill then names.filter fun n ↦ !t.covers n else []
  (guarded ++ unguarded).eraseDups

/-- What is wrong with an entry of a table: the registry does not know its name, or its guard is
about another call. -/
def entryFault? (registry : Registry) (entry : String × Guard) : Option PolicyError :=
  if !registry.contains entry.1 then some (.unknownAbi entry.1)
  else if entry.2.call.name ≠ entry.1 then some (.misfiledGuard entry.2.call.name entry.1)
  else none

end GuardTable

end CallGate.Policy

/-! ## Policies -/

namespace CallGate

open Abi Data Policy

/-- A complete policy. Each of its guards has statements and is filed under the name of its call,
which the registry knows. -/
structure Policy where
  default : Action
  guards : GuardTable
  registry : Registry
  filed : ∀ e ∈ guards.entries, registry.contains e.1 ∧ e.2.call.name = e.1 ∧ ¬ e.2.isEmpty

namespace Policy

/-- The policy of a default action and a table of guards, which are checked in order. -/
def build (default : Action) (guards : GuardTable) (registry : Registry := .default) :
    Except PolicyError Policy :=
  match h : guards.entries.findSome? (GuardTable.entryFault? registry) with
  | some e => .error e
  | none =>
    have filed : ∀ e ∈ guards.withoutEmpty.entries,
        registry.contains e.1 ∧ e.2.call.name = e.1 ∧ ¬ e.2.isEmpty := by
      intro e he
      obtain ⟨hmem, hne⟩ := List.mem_filter.mp he
      have hfault := List.findSome?_eq_none_iff.mp h e hmem
      unfold GuardTable.entryFault? at hfault
      split at hfault
      · cases hfault
      · next hc =>
        split at hfault
        · cases hfault
        · next hn => simp_all
    .ok { default, guards := guards.withoutEmpty, registry, filed }

/-- The guard of a call; without one the default action applies. -/
def guard? (p : Policy) (name : String) : Option Guard := p.guards.find? name

/-- The calls that end the guest whatever their arguments. -/
def fatalNames (p : Policy) : List String :=
  p.guards.fatalNames p.default p.registry.names

/-- Decide about a call: the actions of its guard, or the default action if there are none. -/
def evaluate (p : Policy) (name : String) (args : List Value) : Run (List Action) :=
  match p.guard? name with
  | none => return [p.default]
  | some g => do
    let actions ← g.evaluate args
    return if actions.isEmpty then [p.default] else actions

/-- The calls of the registry that have no guard, in order. -/
def unguardedNames (p : Policy) : List String :=
  p.registry.names.filter fun n ↦ (p.guard? n).isNone

/-- The names of the guards, in order. -/
def guardNames (p : Policy) : List String := p.guards.names

/-- The default action and the numbers of guards and of calls that are always killed. -/
def text (p : Policy) : String :=
  s!"<Policy default={p.default.text}, guards={p.guards.entries.length}, " ++
    s!"must_be_killed={p.fatalNames.length}>"

end Policy

end CallGate
