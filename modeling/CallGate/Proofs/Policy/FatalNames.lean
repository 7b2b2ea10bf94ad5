import CallGate.Proofs.Policy.Evaluation

/-!
# Calls that are always killed

`Policy.fatalNames` is read off the guards in one pass. What it is meant to say is about all
arguments there could be: whatever the bounds turn out to be, `kill` is among the actions. This
module compares the two.

The arguments enter by the verdicts of the bounds only, so that `AlwaysKills` quantifies over the
verdicts. They agree but for one kind of guard. Where the default is `kill` and every statement is a
kill with a bound, a call is killed if any bound holds, and also if none does, since it is up to the
default then. Such a call is not on the list, and by the theorem it is the only kind that is
missing.

For the direction from the verdicts to the list one set of verdicts is enough: in favour of
everything that does not kill, and against everything that does. If `kill` is in the answer even so,
it is the action of an unconditional statement, or of the default, which then had the last word over
nothing but kills.
-/

namespace CallGate.Policy

open CallGate.Abi CallGate.Data

/-! ## Answers under all verdicts -/

/-- Whatever the verdicts on the bounds, the guest is ended. -/
def AlwaysKills (default : Action) (statements : List Statement) : Prop :=
  ∀ verdicts : List Bool, verdicts.length = statements.length →
    .kill ∈ answerUnder default statements verdicts

theorem Statement.isFatal_iff {s : Statement} :
    s.isFatal = true ↔ s.action = .kill ∧ s.isUnconditional = true := by
  rw [isFatal, Bool.and_eq_true, Action.isKill, beq_iff_eq]

theorem exists_of_mem_actionsUnder {a : Action} {statements : List Statement}
    {verdicts : List Bool} (h : a ∈ actionsUnder statements verdicts) :
    ∃ s ∈ statements, s.action = a := by
  obtain ⟨⟨s, v⟩, he, rfl⟩ := List.mem_map.mp h
  exact ⟨s, (List.of_mem_zip (List.mem_filter.mp he).1).1, rfl⟩

theorem mem_actionsUnder_of_isUnconditional {s : Statement} {statements : List Statement}
    {verdicts : List Bool} (hlen : verdicts.length = statements.length) (hs : s ∈ statements)
    (hu : s.isUnconditional = true) : s.action ∈ actionsUnder statements verdicts := by
  induction statements generalizing verdicts with
  | nil => simp at hs
  | cons t ts ih =>
    obtain ⟨v, vs, rfl⟩ := List.exists_cons_of_length_eq_add_one hlen
    rw [actionsUnder_cons]
    rcases List.mem_cons.mp hs with rfl | hs
    · rw [hu, Bool.true_or, if_pos rfl]
      exact List.mem_cons_self
    · have hmem := ih (by simpa using hlen) hs
      split
      · exact List.mem_cons_of_mem _ hmem
      · exact hmem

/-- Verdicts that depend on the statement only. -/
theorem mem_actionsUnder_map {a : Action} {statements : List Statement} {f : Statement → Bool} :
    a ∈ actionsUnder statements (statements.map f) ↔
      ∃ s ∈ statements, (s.isUnconditional || f s) = true ∧ s.action = a := by
  induction statements with
  | nil => simp [actionsUnder]
  | cons s ss ih =>
    rw [List.map_cons, actionsUnder_cons]
    by_cases hs : (s.isUnconditional || f s) = true
    · rw [if_pos hs, List.mem_cons, ih, List.exists_mem_cons_iff, eq_comm]
      simp only [hs, true_and]
    · rw [if_neg hs, ih, List.exists_mem_cons_iff]
      simp only [hs, Bool.false_eq_true, false_and, false_or]

theorem alwaysKills_iff {default : Action} {statements : List Statement} :
    AlwaysKills default statements ↔ (∃ s ∈ statements, s.isFatal = true) ∨
      default = .kill ∧ ∀ s ∈ statements, s.action = .kill := by
  constructor
  · intro h
    -- Verdicts in favour of everything that does not kill, and of nothing else.
    have hadverse := h (statements.map fun s ↦ !s.action.isKill) (List.length_map _)
    rw [answerUnder] at hadverse
    split at hadverse
    · next hnil =>
      refine .inr ⟨(List.mem_singleton.mp hadverse).symm, fun s hs ↦ ?_⟩
      by_contra hne
      have hmem : s.action ∈ actionsUnder statements (statements.map fun s ↦ !s.action.isKill) :=
        mem_actionsUnder_map.mpr ⟨s, hs, by simp [Action.isKill, hne], rfl⟩
      rw [hnil] at hmem
      exact List.not_mem_nil hmem
    · obtain ⟨s, hs, htriggers, hkill⟩ := mem_actionsUnder_map.mp hadverse
      refine .inl ⟨s, hs, Statement.isFatal_iff.mpr ⟨hkill, ?_⟩⟩
      simpa [Action.isKill, hkill] using htriggers
  · rintro (⟨s, hs, hfatal⟩ | ⟨rfl, hkills⟩) verdicts hlen
    · -- One action is there in any case, so the default is not asked.
      obtain ⟨hkill, hu⟩ := Statement.isFatal_iff.mp hfatal
      have hmem := mem_actionsUnder_of_isUnconditional hlen hs hu
      rw [answerUnder, if_neg (List.ne_nil_of_mem hmem)]
      rwa [hkill] at hmem
    · rw [answerUnder]
      split
      · exact List.mem_singleton_self _
      · next hne =>
        obtain ⟨a, ha⟩ := List.exists_mem_of_ne_nil _ hne
        obtain ⟨s, hs, rfl⟩ := exists_of_mem_actionsUnder ha
        rwa [hkills s hs] at ha

/-- The same, with the guards whose kills all have bounds told from the others. -/
theorem alwaysKills_iff_bounded {default : Action} {statements : List Statement} :
    AlwaysKills default statements ↔
      ((∃ s ∈ statements, s.isFatal = true) ∨ default = .kill ∧ statements = []) ∨
        default = .kill ∧ statements ≠ [] ∧
          ∀ s ∈ statements, s.bound.isSome = true ∧ s.action = .kill := by
  rw [alwaysKills_iff]
  constructor
  · rintro (hfatal | ⟨hdefault, hkills⟩)
    · exact .inl (.inl hfatal)
    · by_cases hnil : statements = []
      · exact .inl (.inr ⟨hdefault, hnil⟩)
      · by_cases hbounds : ∀ s ∈ statements, s.bound.isSome = true
        · exact .inr ⟨hdefault, hnil, fun s hs ↦ ⟨hbounds s hs, hkills s hs⟩⟩
        · push Not at hbounds
          obtain ⟨s, hs, hunbound⟩ := hbounds
          refine .inl (.inl ⟨s, hs, Statement.isFatal_iff.mpr ⟨hkills s hs, ?_⟩⟩)
          simpa [Statement.isUnconditional] using hunbound
  · rintro ((hfatal | ⟨hdefault, rfl⟩) | ⟨hdefault, -, hkills⟩)
    · exact .inl hfatal
    · exact .inr ⟨hdefault, fun s hs ↦ absurd hs List.not_mem_nil⟩
    · exact .inr ⟨hdefault, fun s hs ↦ (hkills s hs).2⟩

/-! ## The list -/

theorem Guard.isFatal_iff {g : Guard} :
    g.isFatal = true ↔ ∃ s ∈ g.statements, s.isFatal = true := by
  rw [isFatal, List.any_eq_true]

theorem GuardTable.mem_fatalNames {t : GuardTable} {default : Action} {names : List String}
    {name : String} :
    name ∈ t.fatalNames default names ↔ (∃ s ∈ t.statements name, s.isFatal = true) ∨
      default = .kill ∧ name ∈ names ∧ t.statements name = [] := by
  have hguarded : name ∈ (t.entries.filter (·.2.isFatal)).map (·.1) ↔
      ∃ s ∈ t.statements name, s.isFatal = true := by
    simp only [List.mem_map, List.mem_filter, Guard.isFatal_iff, mem_statements]
    constructor
    · rintro ⟨⟨name', g⟩, ⟨he, s, hs, hfatal⟩, rfl⟩
      exact ⟨s, ⟨g, he, hs⟩, hfatal⟩
    · rintro ⟨s, ⟨g, he, hs⟩, hfatal⟩
      exact ⟨(name, g), ⟨he, s, hs, hfatal⟩, rfl⟩
  have hunguarded : name ∈ (if default.isKill then names.filter fun n ↦ !t.covers n else []) ↔
      default = .kill ∧ name ∈ names ∧ t.statements name = [] := by
    have hcovers : (!t.covers name) = true ↔ t.statements name = [] := by
      rw [Bool.not_eq_true', ← Bool.not_eq_true, covers_eq_true, not_not]
    by_cases hkill : default = .kill
    · rw [if_pos (by simp [Action.isKill, hkill]), List.mem_filter, hcovers]
      simp only [hkill, true_and]
    · rw [if_neg (by simp [Action.isKill, hkill])]
      simp [hkill]
  rw [fatalNames, List.mem_eraseDups, List.mem_append, hguarded, hunguarded]

/-- A call on the list is killed whenever it is evaluated. -/
theorem kill_mem_of_mem_fatalNames {p : Policy} {name : String} (hname : name ∈ p.fatalNames)
    {args : List Value} {actions : List Action}
    (hrun : (p.evaluate name args).outcome = .ok actions) : .kill ∈ actions := by
  obtain ⟨-, verdicts, hverdicts, rfl⟩ := evaluate_eq_ok.mp hrun
  refine alwaysKills_iff.mpr ?_ verdicts hverdicts.length_eq.symm
  rcases GuardTable.mem_fatalNames.mp hname with hfatal | ⟨hdefault, -, hnil⟩
  · exact .inl hfatal
  · refine .inr ⟨hdefault, fun s hs ↦ ?_⟩
    rw [hnil] at hs
    exact absurd hs List.not_mem_nil

/-- The list holds names of the registry only, whether they come from a guard or from the
default. -/
theorem mem_names_of_mem_fatalNames {p : Policy} {name : String} (h : name ∈ p.fatalNames) :
    name ∈ p.registry.names := by
  rcases GuardTable.mem_fatalNames.mp h with ⟨s, hs, -⟩ | ⟨-, hname, -⟩
  · obtain ⟨g, he, -⟩ := GuardTable.mem_statements.mp hs
    exact Registry.contains_iff.mp (p.filed _ he).1
  · exact hname

/-- **What the list of fatal calls means.** For every policy that can be built: the list holds names
of the registry only, a call that is evaluated gets the answer under the verdicts of the bounds on
its arguments, and `kill` is in the answer under all verdicts exactly for the calls on the list and
for those whose statements, at least one, are kills with bounds behind a default of `kill`. -/
theorem fatalNames_exact {default : Action} {table : GuardTable} {registry : Registry} {p : Policy}
    (hp : build default table registry = .ok p) :
    (∀ name ∈ p.fatalNames, name ∈ registry.names) ∧
      ∀ name ∈ registry.names,
        (∀ args actions, (p.evaluate name args).outcome = .ok actions →
          ∃ verdicts, List.Forall₂ (fun s v ↦ ∀ b ∈ s.bound, (b.holds args).outcome = .ok v)
              (table.statements name) verdicts ∧
            actions = answerUnder default (table.statements name) verdicts) ∧
        (AlwaysKills default (table.statements name) ↔
          name ∈ p.fatalNames ∨ default = .kill ∧ table.statements name ≠ [] ∧
            ∀ s ∈ table.statements name, s.bound.isSome = true ∧ s.action = .kill) := by
  obtain ⟨-, rfl, hguards, rfl⟩ := build_eq_ok.mp hp
  have hstatements (name : String) : p.guards.statements name = table.statements name := by
    rw [hguards, GuardTable.statements_withoutEmpty]
  refine ⟨fun name ↦ mem_names_of_mem_fatalNames, fun name hname ↦ ⟨fun args actions hrun ↦ ?_, ?_⟩⟩
  · obtain ⟨-, verdicts, hverdicts, rfl⟩ := evaluate_eq_ok.mp hrun
    rw [hstatements] at hverdicts ⊢
    exact ⟨verdicts, hverdicts.imp fun s v h ↦ (Statement.triggers_eq_ok.mp h).2.2, rfl⟩
  · rw [alwaysKills_iff_bounded, fatalNames, GuardTable.mem_fatalNames, hstatements]
    simp only [hname, true_and]

/-- A kill with a bound behind a default of `kill`: it is not on the list and kills all the same. -/
theorem fatalNames_exact_bounded_kill :
    let call : Descriptor := ⟨"fd_close", [.typed "fd" .u32]⟩
    let bound : Bound := { predicate := .function ⟨none, none, fun _ ↦ ⟨[], .ok true⟩⟩ 1 }
    let statement : Statement := {
      call, action := .kill, bound := some bound
      arity_bound := by rintro _ ⟨⟩; rfl }
    let guard : Guard := { call, statements := [statement], name_statements := by simp [statement] }
    let table : GuardTable := .ofList [("fd_close", guard)]
    let registry : Registry := ⟨[call], true, by decide⟩
    ∃ p, build .kill table registry = .ok p ∧ p.fatalNames = [] ∧
      AlwaysKills .kill (table.statements "fd_close") := by
  intro call bound statement guard table registry
  have hp : build .kill table registry = .ok ⟨.kill, table.withoutEmpty, registry, by decide⟩ := rfl
  refine ⟨_, hp, by decide, ?_⟩
  refine ((fatalNames_exact hp).2 "fd_close" (by decide)).2.mpr (.inr ⟨rfl, ?_, ?_⟩)
  · exact List.cons_ne_nil _ _
  · intro s hs
    obtain rfl : s = statement := List.mem_singleton.mp hs
    exact ⟨rfl, rfl⟩

end CallGate.Policy
