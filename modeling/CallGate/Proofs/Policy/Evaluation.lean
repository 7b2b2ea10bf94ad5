import CallGate.Policy
import CallGate.Proofs.Abi.Registry
import CallGate.Proofs.Data.Outcome
import Mathlib.Data.Int.Notation

/-!
# The evaluation of a policy

What a policy answers is settled by two things: the statements filed under the name of the call, and
the verdicts of their bounds on the arguments. `actionsUnder` and `answerUnder` say how, without
running anything, and `Policy.evaluate_eq_ok` says that a call that is evaluated at all gets just
that answer.

The lemmas before it go up through the layers, a run, a statement, a guard, a table of guards, and
each says when that layer succeeds and with what. What a run leaves behind as events plays no part
here, and of a registry only that it finds a call under the name of the call.
-/

namespace CallGate.Policy

open CallGate.Abi CallGate.Data

/-! ## Runs -/

namespace Run

variable {α β : Type}

theorem bind_outcome_eq_ok {r : Run α} {f : α → Run β} {b : β} :
    (r >>= f).outcome = .ok b ↔ ∃ a, r.outcome = .ok a ∧ (f a).outcome = .ok b := by
  obtain ⟨events, outcome⟩ := r
  cases outcome with
  | error e => simp [bind, Run.bind]
  | ok a => simp [bind, Run.bind]

theorem bind_outcome_eq_error {r : Run α} {f : α → Run β} {e : PolicyError} :
    (r >>= f).outcome = .error e ↔
      r.outcome = .error e ∨ ∃ a, r.outcome = .ok a ∧ (f a).outcome = .error e := by
  obtain ⟨events, outcome⟩ := r
  cases outcome with
  | error e' => simp [bind, Run.bind]
  | ok a => simp [bind, Run.bind]

theorem bind_of_ok {r : Run α} {a : α} (h : r.outcome = .ok a) (f : α → Run β) :
    r >>= f = ⟨r.events ++ (f a).events, (f a).outcome⟩ := by
  change Run.bind r f = _
  rw [Run.bind, h]

theorem bind_of_error {r : Run α} {e : PolicyError} (h : r.outcome = .error e) (f : α → Run β) :
    r >>= f = ⟨r.events, .error e⟩ := by
  change Run.bind r f = _
  rw [Run.bind, h]

@[simp] theorem outcome_pure (a : α) : (pure a : Run α).outcome = .ok a := rfl

@[simp] theorem outcome_liftM (x : Except PolicyError α) : (liftM x : Run α).outcome = x := rfl

end Run

theorem expectArity_eq_ok {call : Option String} {expected actual : ℤ} {u : Unit} :
    expectArity call expected actual = .ok u ↔ expected = actual := by
  unfold expectArity
  split
  · next h => simp [h]
  · next h => simp [h]

/-! ## Statements and guards -/

/-- The actions of the statements that are unconditional or have a verdict in their favour. -/
def actionsUnder (statements : List Statement) (verdicts : List Bool) : List Action :=
  ((statements.zip verdicts).filter fun (s, v) ↦ s.isUnconditional || v).map fun (s, _) ↦ s.action

theorem actionsUnder_cons (s : Statement) (ss : List Statement) (v : Bool) (vs : List Bool) :
    actionsUnder (s :: ss) (v :: vs) =
      if s.isUnconditional || v then s.action :: actionsUnder ss vs else actionsUnder ss vs := by
  simp only [actionsUnder, List.zip_cons_cons, List.filter_cons]
  split
  · rw [List.map_cons]
  · rfl

theorem Statement.triggers_eq_ok {s : Statement} {args : List Value} {v : Bool} :
    (s.triggers args).outcome = .ok v ↔ (s.call.arity : ℤ) = args.length ∧
      (s.isUnconditional = true → v = true) ∧
      ∀ b ∈ s.bound, (b.holds args).outcome = .ok v := by
  obtain ⟨call, action, bound, harity⟩ := s
  unfold triggers
  simp only [Run.bind_outcome_eq_ok, Run.outcome_liftM, expectArity_eq_ok, exists_const]
  cases bound with
  | none => simp [isUnconditional, eq_comm]
  | some b => simp [isUnconditional]

/-- A list of statements is evaluated if each of them is, and then answers with the actions under
the verdicts. -/
theorem Guard.triggered_eq_ok {args : List Value} {statements : List Statement}
    {actions : List Action} :
    (triggered args statements).outcome = .ok actions ↔
      ∃ verdicts, List.Forall₂ (fun s v ↦ (s.triggers args).outcome = .ok v) statements verdicts ∧
        actions = actionsUnder statements verdicts := by
  induction statements generalizing actions with
  | nil => simp [triggered, actionsUnder, eq_comm]
  | cons s ss ih =>
    -- An unconditional statement has no other verdict, so it may be asked for one like the others.
    have hspeaks {v : Bool} (h : (s.triggers args).outcome = .ok v) :
        (s.isUnconditional || v) = v := by
      have hv := (Statement.triggers_eq_ok.mp h).2.1
      cases hs : s.isUnconditional with
      | false => rfl
      | true => rw [hv hs, Bool.or_true]
    simp only [triggered, Run.bind_outcome_eq_ok, ih, Run.outcome_pure, Except.ok.injEq]
    constructor
    · rintro ⟨v, hv, rest, ⟨vs, hvs, rfl⟩, rfl⟩
      refine ⟨v :: vs, .cons hv hvs, ?_⟩
      rw [actionsUnder_cons, hspeaks hv]
    · rintro ⟨_, h, rfl⟩
      cases h with
      | cons hv hvs =>
        refine ⟨_, hv, _, ⟨_, hvs, rfl⟩, ?_⟩
        rw [actionsUnder_cons, hspeaks hv]

theorem Guard.evaluate_eq_ok {g : Guard} {args : List Value} {actions : List Action} :
    (g.evaluate args).outcome = .ok actions ↔ (g.call.arity : ℤ) = args.length ∧
      ∃ verdicts, List.Forall₂ (fun s v ↦ (s.triggers args).outcome = .ok v) g.statements verdicts ∧
        actions = actionsUnder g.statements verdicts := by
  unfold evaluate
  simp only [Run.bind_outcome_eq_ok, Run.outcome_liftM, expectArity_eq_ok, exists_const,
    triggered_eq_ok]

/-! ## Tables of guards -/

namespace GuardTable

/-- The statements filed under a name: those of its guard, and none without one. -/
def statements (t : GuardTable) (name : String) : List Statement :=
  (t.find? name).elim [] (·.statements)

theorem find?_eq_some {t : GuardTable} {name : String} {g : Guard} :
    t.find? name = some g ↔ (name, g) ∈ t.entries := by
  simp only [find?, Option.map_eq_some_iff, find?_key_eq_some _ t.nodup_names]
  constructor
  · rintro ⟨e, ⟨he, rfl⟩, rfl⟩
    exact he
  · intro h
    exact ⟨_, ⟨h, rfl⟩, rfl⟩

theorem mem_statements {t : GuardTable} {name : String} {s : Statement} :
    s ∈ t.statements name ↔ ∃ g, (name, g) ∈ t.entries ∧ s ∈ g.statements := by
  rw [statements]
  cases hg : t.find? name with
  | none => simp [← find?_eq_some, hg]
  | some g => simp [← find?_eq_some, hg]

theorem covers_eq_true {t : GuardTable} {name : String} :
    t.covers name = true ↔ t.statements name ≠ [] := by
  rw [covers, statements]
  cases t.find? name with
  | none => simp
  | some g => simp [Guard.isEmpty]

/-- Names are filed once, so a guard that is dropped leaves no other one behind. -/
theorem find?_withoutEmpty_eq_some {t : GuardTable} {name : String} {g : Guard} :
    t.withoutEmpty.find? name = some g ↔ t.find? name = some g ∧ g.isEmpty = false := by
  rw [find?_eq_some, find?_eq_some, withoutEmpty, List.mem_filter, Bool.not_eq_true']

/-- A guard without statements files none. -/
theorem statements_withoutEmpty (t : GuardTable) (name : String) :
    t.withoutEmpty.statements name = t.statements name := by
  rw [statements, statements]
  cases hg : t.find? name with
  | none =>
    have hnone : t.withoutEmpty.find? name = none := by
      simp [Option.eq_none_iff_forall_ne_some, find?_withoutEmpty_eq_some, hg]
    rw [hnone]
  | some g =>
    by_cases he : g.isEmpty = true
    · have hnone : t.withoutEmpty.find? name = none := by
        simp [Option.eq_none_iff_forall_ne_some, find?_withoutEmpty_eq_some, hg, he]
      rw [hnone]
      exact (List.isEmpty_iff.mp he).symm
    · rw [find?_withoutEmpty_eq_some.mpr ⟨hg, by simpa using he⟩]

theorem entryFault?_eq_none {registry : Registry} {e : String × Guard} :
    entryFault? registry e = none ↔ registry.contains e.1 = true ∧ e.2.call.name = e.1 := by
  unfold entryFault?
  cases registry.contains e.1 with
  | false => simp
  | true => simp

end GuardTable

/-! ## Policies -/

theorem build_eq_ok {default : Action} {table : GuardTable} {registry : Abi.Registry}
    {p : Policy} :
    build default table registry = .ok p ↔
      (∀ e ∈ table.entries, registry.contains e.1 = true ∧ e.2.call.name = e.1) ∧
        p.default = default ∧ p.guards = table.withoutEmpty ∧ p.registry = registry := by
  have hfault : table.entries.findSome? (GuardTable.entryFault? registry) = none ↔
      ∀ e ∈ table.entries, registry.contains e.1 = true ∧ e.2.call.name = e.1 := by
    simp only [List.findSome?_eq_none_iff, GuardTable.entryFault?_eq_none]
  rw [← hfault]
  unfold build
  split
  · next e he => simp [he]
  · next he =>
    obtain ⟨default', guards, registry', filed⟩ := p
    simp only [he, Except.ok.injEq, mk.injEq, true_and]
    constructor
    · rintro ⟨rfl, rfl, rfl⟩
      exact ⟨rfl, rfl, rfl⟩
    · rintro ⟨rfl, rfl, rfl⟩
      exact ⟨rfl, rfl, rfl⟩

/-- A policy is what comes of checking its own guards: nothing else is a policy. -/
theorem build_self (p : Policy) : build p.default p.guards p.registry = .ok p := by
  refine build_eq_ok.mpr ⟨fun e he ↦ ?_, rfl, ?_, rfl⟩
  · obtain ⟨hc, hn, -⟩ := p.filed e he
    exact ⟨hc, hn⟩
  · have hkept : p.guards.entries.filter (fun e ↦ !e.2.isEmpty) = p.guards.entries := by
      refine List.filter_eq_self.mpr fun e he ↦ ?_
      simpa using (p.filed e he).2.2
    rw [GuardTable.withoutEmpty]
    simp only [hkept]

/-- The answer of a policy with some default under some verdicts. -/
def answerUnder (default : Action) (statements : List Statement) (verdicts : List Bool) :
    List Action :=
  if actionsUnder statements verdicts = [] then [default] else actionsUnder statements verdicts

/-- A call is evaluated if its guard, where it has one, takes as many arguments and each statement
is evaluated. The answer is that under the verdicts. -/
theorem evaluate_eq_ok {p : Policy} {name : String} {args : List Value} {actions : List Action} :
    (p.evaluate name args).outcome = .ok actions ↔
      (∀ g ∈ p.guard? name, (g.call.arity : ℤ) = args.length) ∧
        ∃ verdicts, List.Forall₂ (fun s v ↦ (s.triggers args).outcome = .ok v)
            (p.guards.statements name) verdicts ∧
          actions = answerUnder p.default (p.guards.statements name) verdicts := by
  rw [evaluate, guard?, GuardTable.statements]
  cases p.guards.find? name with
  | none => simp [answerUnder, actionsUnder, eq_comm]
  | some g =>
    simp only [Run.bind_outcome_eq_ok, Guard.evaluate_eq_ok, Run.outcome_pure, Except.ok.injEq,
      List.isEmpty_iff, Option.mem_some_iff, forall_eq', Option.elim_some, answerUnder]
    constructor
    · rintro ⟨_, ⟨harity, verdicts, h, rfl⟩, rfl⟩
      exact ⟨harity, verdicts, h, rfl⟩
    · rintro ⟨harity, verdicts, h, rfl⟩
      exact ⟨_, ⟨harity, verdicts, h, rfl⟩, rfl⟩

end CallGate.Policy
