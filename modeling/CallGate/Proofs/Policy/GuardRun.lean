import CallGate.Proofs.Policy.Log
import CallGate.Proofs.Policy.Meaning

/-!
# What a guard does with a call

A guard is asked with the arguments of a call, and its statements are gone through one after the
other. Nothing stops the walk but a failure: a statement that triggers does not spare the ones
behind it from being evaluated, and a statement that does not trigger leaves no trace in the
answer. What a host sees of this is the run of the guard, the calls of its functions included, and
`evaluate_collects` says what the run is.

## The walk and the selection

The statements take two things apart that `Guard.triggered` does at once. First every bound is
asked for its verdict (`Statement.verdict`), which is one `mapM` over the statements and everything
that can be observed. Then the actions are selected under the verdicts (`actionsUnder`), and nothing
happens any more. `triggered_eq_mapM` is the bridge. From there on it is about `mapM` alone: what
such a walk leaves behind if all goes well, and what if one of its steps fails.

The number of arguments is looked at by each statement for itself. For a guard whose statements are
as long as its own descriptor this is settled once, before anything is called.
-/

namespace CallGate.Policy

open CallGate.Abi CallGate.Data

/-! ## Runs over a list -/

namespace Run

variable {α β : Type} {f : α → Run β}

/-- If every step answers, each of them has happened, once and in order. -/
theorem mapM_of_ok {as : List α} {bs : List β}
    (h : List.Forall₂ (fun a b ↦ (f a).outcome = .ok b) as bs) :
    as.mapM f = ⟨as.flatMap fun a ↦ (f a).events, .ok bs⟩ := by
  induction h with
  | nil => rfl
  | @cons a b as bs hab _ ih =>
    have hrest : (do return b :: (← as.mapM f)) =
        (⟨as.flatMap fun a ↦ (f a).events, .ok (b :: bs)⟩ : Run (List β)) := by
      rw [ih, bind_of_ok rfl]
      simp [pure]
    rw [List.mapM_cons, bind_of_ok hab, hrest, List.flatMap_cons]

/-- If a step fails, what comes behind it does not happen. -/
theorem mapM_of_error {before after : List α} {a : α} {e : PolicyError}
    (hbefore : ∀ b ∈ before, ∃ c, (f b).outcome = .ok c) (ha : (f a).outcome = .error e) :
    (before ++ a :: after).mapM f =
      ⟨(before ++ [a]).flatMap fun b ↦ (f b).events, .error e⟩ := by
  induction before with
  | nil =>
    rw [List.nil_append, List.mapM_cons, bind_of_error ha, List.nil_append, List.flatMap_singleton]
  | cons b before ih =>
    obtain ⟨⟨c, hc⟩, hbefore⟩ := List.forall_mem_cons.mp hbefore
    rw [List.cons_append, List.mapM_cons, bind_of_ok hc, ih hbefore, bind_of_error rfl,
      List.cons_append, List.flatMap_cons]

end Run

/-! ## Statements -/

namespace Statement

/-- What a statement has to say on some arguments: the verdict of its bound. Without a bound it is
in favour, and nothing happens. -/
def verdict (args : List Value) (s : Statement) : Run Bool :=
  s.bound.elim (pure true) fun b ↦ b.holds args

variable {s : Statement} {args : List Value}

theorem triggers_of_arity_eq (h : s.call.arity = args.length) :
    s.triggers args = s.verdict args := by
  have hok : expectArity (some s.call.name) s.call.arity args.length = .ok () :=
    expectArity_eq_ok.mpr (by exact_mod_cast h)
  rw [triggers, verdict, hok]
  cases s.bound with
  | none => rfl
  | some b => rfl

end Statement

/-! ## Guards -/

namespace Guard

variable {g : Guard} {args : List Value} {statements : List Statement}

/-- Ask every statement for its verdict, then select the actions. -/
theorem triggered_eq_mapM (hfit : ∀ s ∈ statements, s.call.arity = args.length) :
    triggered args statements = do
      let verdicts ← statements.mapM (Statement.verdict args)
      return actionsUnder statements verdicts := by
  induction statements with
  | nil => rfl
  | cons s ss ih =>
    obtain ⟨hs, hss⟩ := List.forall_mem_cons.mp hfit
    rw [triggered, Statement.triggers_of_arity_eq hs, ih hss, List.mapM_cons]
    simp only [bind_assoc, pure_bind, actionsUnder_cons]
    cases hbound : s.bound with
    | none =>
      have hv : s.verdict args = pure true := by rw [Statement.verdict, hbound, Option.elim_none]
      rw [hv, pure_bind, pure_bind]
      simp only [Bool.or_true, if_true]
    | some b =>
      have hu : s.isUnconditional = false := by rw [Statement.isUnconditional, hbound]; rfl
      simp only [hu, Bool.false_or]

/-- The statements of a list are gone through like those of its two parts, one part after the
other. -/
theorem triggered_append (ss ts : List Statement) :
    triggered args (ss ++ ts) = do
      let actions ← triggered args ss
      return actions ++ (← triggered args ts) := by
  induction ss with
  | nil =>
    rw [triggered, List.nil_append, pure_bind]
    simp only [List.nil_append, bind_pure]
  | cons s ss ih =>
    rw [List.cons_append, triggered, triggered, ih]
    simp only [bind_assoc, pure_bind]
    congr 1
    funext holds
    cases holds <;> simp

theorem evaluate_of_arity_eq (h : args.length = g.call.arity) :
    g.evaluate args = triggered args g.statements := by
  have hok : expectArity (some g.call.name) g.call.arity args.length = .ok () :=
    expectArity_eq_ok.mpr (by exact_mod_cast h.symm)
  rw [evaluate, hok]
  rfl

theorem evaluate_of_length_ne (h : args.length ≠ g.call.arity) :
    g.evaluate args =
      ⟨[], .error (.arityMismatch (some g.call.name) g.call.arity args.length)⟩ := by
  have hne : ¬ (g.call.arity : ℤ) = args.length := by exact_mod_cast h.symm
  rw [evaluate, expectArity, if_neg hne]
  rfl

/-- A guard can be split between any two of its statements. -/
theorem exists_split {ss ts : List Statement} (h : g.statements = ss ++ ts)
    (hargs : args.length = g.call.arity) :
    ∃ l r, build g.call ss = .ok l ∧ build g.call ts = .ok r ∧
      g.evaluate args = do
        let actions ← l.evaluate args
        return actions ++ (← r.evaluate args) := by
  have hnames : ∀ s ∈ ss ++ ts, s.call.name = g.call.name := h ▸ g.name_statements
  obtain ⟨hss, hts⟩ := List.forall_mem_append.mp hnames
  refine ⟨⟨g.call, ss, hss⟩, ⟨g.call, ts, hts⟩, build_eq_ok.mpr ⟨hss, rfl, rfl⟩,
    build_eq_ok.mpr ⟨hts, rfl, rfl⟩, ?_⟩
  rw [evaluate_of_arity_eq hargs, evaluate_of_arity_eq (g := ⟨g.call, ss, hss⟩) hargs,
    evaluate_of_arity_eq (g := ⟨g.call, ts, hts⟩) hargs, h, triggered_append]

end Guard

/-! ## Policies -/

section

variable {p : Policy} {name : String} {args : List Value} {g : Guard} {events : List Event}

theorem evaluate_of_guard?_eq_none (h : p.guard? name = none) :
    p.evaluate name args = ⟨[], .ok [p.default]⟩ := by
  rw [evaluate, h]
  rfl

theorem evaluate_of_ok {actions : List Action} (hg : p.guard? name = some g)
    (h : g.evaluate args = ⟨events, .ok actions⟩) :
    p.evaluate name args = ⟨events, .ok (if actions = [] then [p.default] else actions)⟩ := by
  rw [evaluate, hg]
  simp only [h, List.isEmpty_iff]
  rw [Run.bind_of_ok rfl]
  simp [pure]

theorem evaluate_of_error {e : PolicyError} (hg : p.guard? name = some g)
    (h : g.evaluate args = ⟨events, .error e⟩) : p.evaluate name args = ⟨events, .error e⟩ := by
  rw [evaluate, hg]
  simp only [h]
  rw [Run.bind_of_error rfl]

end

/-! ## What is collected -/

/-- **What a guard collects.** Where a guard has statements as long as itself and is asked with as
many arguments: if all bounds answer, each of them has been evaluated once, in order, and the
answer is the actions of the statements that are unconditional or have a verdict in their favour;
if one of them fails, its failure comes out, and those behind it have not been evaluated; and a
guard that is split between two statements does what its two parts do. With any other number of
arguments it refuses before anything is called. A policy takes the answer over, along with
everything that happened or went wrong, and puts the default in the place of an empty one. -/
theorem evaluate_collects :
    (∀ g : Guard, (∀ s ∈ g.statements, s.call.arity = g.call.arity) →
      ∀ args : List Value, args.length = g.call.arity →
        (∀ verdicts, List.Forall₂ (fun s v ↦ (s.verdict args).outcome = .ok v)
            g.statements verdicts →
          g.evaluate args = ⟨g.statements.flatMap fun s ↦ (s.verdict args).events,
            .ok (actionsUnder g.statements verdicts)⟩) ∧
        (∀ before s after e, g.statements = before ++ s :: after →
          (∀ t ∈ before, ∃ v, (t.verdict args).outcome = .ok v) →
          (s.verdict args).outcome = .error e →
          g.evaluate args =
            ⟨(before ++ [s]).flatMap fun s ↦ (s.verdict args).events, .error e⟩) ∧
        ∀ ss ts, g.statements = ss ++ ts →
          ∃ l r, Guard.build g.call ss = .ok l ∧ Guard.build g.call ts = .ok r ∧
            g.evaluate args = do
              let actions ← l.evaluate args
              return actions ++ (← r.evaluate args)) ∧
    (∀ (g : Guard) (args : List Value), args.length ≠ g.call.arity →
      g.evaluate args =
        ⟨[], .error (.arityMismatch (some g.call.name) g.call.arity args.length)⟩) ∧
    ∀ (p : Policy) (name : String) (args : List Value),
      (p.guard? name = none → p.evaluate name args = ⟨[], .ok [p.default]⟩) ∧
      (∀ g, p.guard? name = some g → ∀ events,
        (∀ actions, g.evaluate args = ⟨events, .ok actions⟩ → p.evaluate name args =
          ⟨events, .ok (if actions = [] then [p.default] else actions)⟩) ∧
        ∀ e, g.evaluate args = ⟨events, .error e⟩ → p.evaluate name args = ⟨events, .error e⟩) ∧
      (p.evaluate name args).outcome ≠ .ok [] := by
  refine ⟨fun g hfit args hargs ↦ ?_, fun g args ↦ Guard.evaluate_of_length_ne,
    fun p name args ↦ ⟨evaluate_of_guard?_eq_none, fun g hg events ↦
      ⟨fun actions ↦ evaluate_of_ok hg, fun e ↦ evaluate_of_error hg⟩, fun h ↦ ?_⟩⟩
  · have hlength : ∀ s ∈ g.statements, s.call.arity = args.length := fun s hs ↦
      (hfit s hs).trans hargs.symm
    have hwalk := Guard.triggered_eq_mapM hlength
    rw [← Guard.evaluate_of_arity_eq hargs] at hwalk
    refine ⟨fun verdicts hverdicts ↦ ?_, fun before s after e hsplit hbefore hs ↦ ?_,
      fun ss ts hsplit ↦ Guard.exists_split hsplit hargs⟩
    · rw [hwalk, Run.mapM_of_ok hverdicts, Run.bind_of_ok rfl]
      simp [pure]
    · rw [hwalk, hsplit, Run.mapM_of_error hbefore hs, Run.bind_of_error rfl]
  · exact ne_nil_of_evaluate h rfl

/-- Actions that contradict each other are all collected, and a condition that fails keeps the one
behind it from being looked at. -/
theorem evaluate_collects_conflicting :
    let call : Descriptor := ⟨"fd_close", [.typed "fd" .u32]⟩
    let above : HostFunction := ⟨some "above", some [.positional], fun
      | [.int fd] => ⟨[], .ok (2 < fd)⟩
      | _ => ⟨[], .ok false⟩⟩
    let broken : HostFunction :=
      ⟨some "broken", some [.positional], fun _ ↦ ⟨[], .error (.raised ⟨.valueError, "broken"⟩)⟩⟩
    let rule (action : Action) (f : HostFunction) : Statement :=
      { call, action, bound := some { predicate := .function f 1 }
        arity_bound := by rintro _ ⟨⟩; rfl }
    ∃ g h,
      Guard.build call [rule .kill above, .unconditional call .log, rule .allow above] = .ok g ∧
      Guard.build call [rule .log above, rule .kill broken, rule .allow above] = .ok h ∧
      g.evaluate [.int 5] =
        ⟨[.called above [.int 5], .called above [.int 5]], .ok [.kill, .log, .allow]⟩ ∧
      h.evaluate [.int 5] =
        ⟨[.called above [.int 5], .called broken [.int 5]],
          .error (.host (.raised ⟨.valueError, "broken"⟩))⟩ ∧
      h.evaluate [] = ⟨[], .error (.arityMismatch (some "fd_close") 1 0)⟩ := by
  intro call above broken rule
  let g : Guard := ⟨call, [rule .kill above, .unconditional call .log, rule .allow above],
    by simp [rule, Statement.unconditional]⟩
  let h : Guard := ⟨call, [rule .log above, rule .kill broken, rule .allow above],
    by simp [rule]⟩
  have hg : ∀ s ∈ g.statements, s.call.arity = g.call.arity := by
    simp [g, rule, Statement.unconditional]
  have hh : ∀ s ∈ h.statements, s.call.arity = h.call.arity := by simp [h, rule]
  obtain ⟨hcollects, hrefuses, -⟩ := evaluate_collects
  refine ⟨g, h, Guard.build_eq_ok.mpr ⟨g.name_statements, rfl, rfl⟩,
    Guard.build_eq_ok.mpr ⟨h.name_statements, rfl, rfl⟩, ?_, ?_, hrefuses h [] (by decide)⟩
  · exact (hcollects g hg [.int 5] rfl).1 [true, true, true]
      (.cons rfl (.cons rfl (.cons rfl .nil)))
  · exact (hcollects h hh [.int 5] rfl).2.1 [rule .log above] (rule .kill broken)
      [rule .allow above] _ rfl (List.forall_mem_singleton.mpr ⟨true, rfl⟩) rfl

end CallGate.Policy
