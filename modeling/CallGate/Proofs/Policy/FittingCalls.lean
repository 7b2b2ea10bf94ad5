import CallGate.Proofs.Policy.Log
import CallGate.Proofs.Policy.Totality

/-!
# Guards and the calls that fit them

A call fits a guard if it has as many arguments as the guard's descriptor says. Such a call should
be answered with actions, whatever the statements are, as long as the host functions in them do
their part.

The number of arguments is looked at twice, though: by the guard, and again by each statement with
the descriptor that the statement was made for. These are compared by name when the guard is made,
and two descriptors of one name may differ in length. A statement about the longer or the shorter
one is then let in and refuses every call that fits.

`answersFitting_iff` says that this is all that can happen. For each statement there are just two
cases, by the length of its descriptor: it comes to a verdict on the arguments
(`Statement.exists_verdict`), or it complains about their number (`Statement.triggers_of_arity_ne`),
and the guard complains as the first of its statements does.
-/

namespace CallGate.Policy

open CallGate.Abi CallGate.Data

/-! ## Statements -/

/-- A statement that does not fail by itself: its bound can be made, and the host functions in it
answer when they are given as many arguments as its call has. -/
structure Statement.IsReliable (s : Statement) : Prop where
  isBuilt : ∀ b ∈ s.bound, b.IsBuilt
  answers : ∀ f ∈ s.leaves, f.Answers s.call.arity

namespace Statement

variable {s : Statement} {args : List Value}

theorem triggers_of_arity_ne (h : s.call.arity ≠ args.length) :
    (s.triggers args).outcome =
      .error (.arityMismatch (some s.call.name) s.call.arity args.length) := by
  have hne : ¬ (s.call.arity : ℤ) = args.length := by exact_mod_cast h
  rw [triggers, expectArity, if_neg hne]
  rfl

/-- On as many arguments as its call has, a reliable statement can only fail to read one of them. -/
theorem IsReliable.exists_unreadable (hs : s.IsReliable) (hargs : s.call.arity = args.length)
    {e : PolicyError} (h : (s.triggers args).outcome = .error e) :
    ∃ v ∈ args, ∃ fault, v.toInteger = .error fault ∧ e = .argument fault := by
  have huniform : ∀ b ∈ s.bound, b.IsUniform := fun b hb ↦ (hs.isBuilt b hb).isUniform
  have hpassed := s.passedOn_of_triggers huniform (by exact_mod_cast hargs) h
  cases hpassed with
  | host hf hlength hraise =>
    obtain ⟨v, hv⟩ := hs.answers _ hf _ (hlength.trans hargs.symm)
    rw [hraise] at hv
    cases hv
  | argument hv hfault => exact ⟨_, hv, _, hfault, rfl⟩

theorem IsReliable.exists_verdict (hs : s.IsReliable) (hargs : s.call.arity = args.length)
    (hreadable : ∀ v ∈ args, IsReadable v) : ∃ holds, (s.triggers args).outcome = .ok holds := by
  cases h : (s.triggers args).outcome with
  | ok holds => exact ⟨holds, rfl⟩
  | error e =>
    obtain ⟨v, hv, fault, hfault, -⟩ := hs.exists_unreadable hargs h
    obtain ⟨n, hn⟩ := hreadable v hv
    rw [hfault] at hn
    cases hn

end Statement

/-! ## Guards -/

namespace Guard

variable {g : Guard} {args : List Value} {statements : List Statement}

/-- A guard answers every call that fits it: with actions, or else one of the arguments cannot be
read as an integer. -/
def AnswersFitting (g : Guard) : Prop :=
  ∀ args : List Value, args.length = g.call.arity →
    (∃ actions, (g.evaluate args).outcome = .ok actions) ∨
      ∃ v ∈ args, ∃ fault, v.toInteger = .error fault ∧
        (g.evaluate args).outcome = .error (.argument fault)

theorem triggered_cons_of_ok {s : Statement} {holds : Bool}
    (hs : (s.triggers args).outcome = .ok holds) {e : PolicyError}
    (h : (triggered args statements).outcome = .error e) :
    (triggered args (s :: statements)).outcome = .error e := by
  rw [triggered, Run.bind_outcome_eq_error]
  refine .inr ⟨holds, hs, ?_⟩
  rw [Run.bind_outcome_eq_error]
  exact .inl h

theorem triggered_cons_of_error {s : Statement} {e : PolicyError}
    (hs : (s.triggers args).outcome = .error e) :
    (triggered args (s :: statements)).outcome = .error e := by
  rw [triggered, Run.bind_outcome_eq_error]
  exact .inl hs

/-- **The first statement of another length complains.** The statements before it come to their
verdicts, and those after it are not reached. -/
theorem triggered_of_find? (hstatements : ∀ s ∈ statements, s.IsReliable)
    (hreadable : ∀ v ∈ args, IsReadable v) {s : Statement}
    (h : statements.find? (fun s ↦ s.call.arity != args.length) = some s) :
    (triggered args statements).outcome =
      .error (.arityMismatch (some s.call.name) s.call.arity args.length) := by
  induction statements with
  | nil => cases h
  | cons t ts ih =>
    obtain ⟨ht, hts⟩ := List.forall_mem_cons.mp hstatements
    by_cases harity : t.call.arity = args.length
    · rw [List.find?_cons_of_neg (by simp [harity])] at h
      obtain ⟨holds, hholds⟩ := ht.exists_verdict harity hreadable
      exact triggered_cons_of_ok hholds (ih hts h)
    · rw [List.find?_cons_of_pos (by simp [harity]), Option.some.injEq] at h
      subst h
      exact triggered_cons_of_error (Statement.triggers_of_arity_ne harity)

/-- A guard all of whose statements are as long as its own descriptor answers what fits. -/
theorem answersFitting_of_forall (hstatements : ∀ s ∈ g.statements, s.IsReliable)
    (harity : ∀ s ∈ g.statements, s.call.arity = g.call.arity) : g.AnswersFitting := by
  intro args hargs
  cases houtcome : (g.evaluate args).outcome with
  | ok actions => exact .inl ⟨actions, rfl⟩
  | error e =>
    obtain ⟨s, hs, hfails⟩ := exists_of_evaluate_eq_error (by exact_mod_cast hargs.symm) houtcome
    have hfits : s.call.arity = args.length := (harity s hs).trans hargs.symm
    obtain ⟨v, hv, fault, hfault, rfl⟩ := (hstatements s hs).exists_unreadable hfits hfails
    exact .inr ⟨v, hv, fault, hfault, rfl⟩

theorem evaluate_of_find? (hstatements : ∀ s ∈ g.statements, s.IsReliable)
    (hargs : args.length = g.call.arity) (hreadable : ∀ v ∈ args, IsReadable v) {s : Statement}
    (h : g.statements.find? (fun s ↦ s.call.arity != g.call.arity) = some s) :
    (g.evaluate args).outcome =
      .error (.arityMismatch (some g.call.name) s.call.arity g.call.arity) := by
  have hname : s.call.name = g.call.name := g.name_statements s (List.mem_of_find?_eq_some h)
  have hok : (g.call.arity : ℤ) = args.length := by exact_mod_cast hargs.symm
  rw [← hargs] at h
  rw [evaluate, expectArity, if_pos hok, Run.bind_outcome_eq_error]
  refine .inr ⟨(), rfl, ?_⟩
  rw [triggered_of_find? hstatements hreadable h, hname, hargs]

theorem statements_of_ofStatements (h : ofStatements statements = .ok g) :
    g.statements = statements := by
  cases statements with
  | nil => cases h
  | cons s ss => exact (build_eq_ok.mp h).2.2

/-- **Which guards answer every call that fits them.** A guard that was accepted, with statements
that do not fail by themselves, does so exactly if its statements are about descriptors as long as
its own. Otherwise it answers none: the first statement about a longer or a shorter descriptor
refuses each call that fits and whose arguments can be read. -/
theorem answersFitting_iff {call : Descriptor}
    (hg : build call statements = .ok g ∨ ofStatements statements = .ok g)
    (hstatements : ∀ s ∈ statements, s.IsReliable) :
    (g.AnswersFitting ↔ ∀ s ∈ statements, s.call.arity = g.call.arity) ∧
      ∀ s, statements.find? (fun s ↦ s.call.arity != g.call.arity) = some s →
        ∀ args : List Value, args.length = g.call.arity → (∀ v ∈ args, IsReadable v) →
          (g.evaluate args).outcome =
            .error (.arityMismatch (some g.call.name) s.call.arity g.call.arity) := by
  have hsame : g.statements = statements :=
    hg.elim (fun h ↦ (build_eq_ok.mp h).2.2) statements_of_ofStatements
  subst hsame
  refine ⟨⟨fun hanswers ↦ ?_, answersFitting_of_forall hstatements⟩, fun s hs args hargs hreadable ↦
    evaluate_of_find? hstatements hargs hreadable hs⟩
  by_contra hne
  -- One call is enough to find out: zeros can be read, so it is the number that is refused.
  have hargs : (List.replicate g.call.arity (Value.int 0)).length = g.call.arity :=
    List.length_replicate
  have hreadable : ∀ v ∈ List.replicate g.call.arity (Value.int 0), IsReadable v := by
    intro v hv
    rw [List.eq_of_mem_replicate hv]
    exact ⟨0, rfl⟩
  cases hfind : g.statements.find? (fun s ↦ s.call.arity != g.call.arity) with
  | none =>
    have hall := List.find?_eq_none.mp hfind
    exact hne fun s hs ↦ by simpa using hall s hs
  | some s =>
    have hrefused := evaluate_of_find? hstatements hargs hreadable hfind
    rcases hanswers _ hargs with ⟨actions, hok⟩ | ⟨v, -, fault, -, herror⟩
    · rw [hrefused] at hok
      cases hok
    · rw [hrefused] at herror
      cases herror

/-- A guard for the socket call of one registry with a statement about that of the other, which has
the same name and one argument less: the guard is accepted, and refuses every call. -/
theorem not_answersFitting_other_descriptor :
    let long : Descriptor :=
      ⟨"sock_accept", [.typed "fd" .u32, .typed "flags" .i32, .typed "accepted_fd_ptr" .u32]⟩
    let short : Descriptor := ⟨"sock_accept", [.typed "fd" .u32, .typed "accepted_fd_ptr" .u32]⟩
    Registry.preview1.find? "sock_accept" = some long ∧
    Registry.wasmEdge.find? "sock_accept" = some short ∧
    ∃ g, build long [.unconditional short .log] = .ok g ∧
      (g.evaluate [.int 3, .int 0, .int 0]).outcome =
        .error (.arityMismatch (some "sock_accept") 2 3) ∧
      ¬ g.AnswersFitting := by
  intro long short
  have hname : ∀ s ∈ [Statement.unconditional short .log], s.call.name = long.name :=
    List.forall_mem_singleton.mpr rfl
  let g : Guard := ⟨long, [.unconditional short .log], hname⟩
  have hfails : (g.evaluate [.int 3, .int 0, .int 0]).outcome =
      .error (.arityMismatch (some "sock_accept") 2 3) := rfl
  refine ⟨by decide +kernel, by decide +kernel, g, build_eq_ok.mpr ⟨hname, rfl, rfl⟩, hfails, ?_⟩
  intro hanswers
  rcases hanswers [.int 3, .int 0, .int 0] rfl with ⟨actions, hok⟩ | ⟨v, -, fault, -, herror⟩
  · rw [hfails] at hok
    cases hok
  · rw [hfails] at herror
    cases herror

/-- A guard of two statements about closing a descriptor, the second one with a condition at a
type. -/
theorem answersFitting_fd_close :
    let call : Descriptor := ⟨"fd_close", [.typed "fd" .u32]⟩
    let above : HostFunction := ⟨none, some [.positional], fun
      | [.int fd] => ⟨[], .ok (2 < fd)⟩
      | _ => ⟨[], .ok false⟩⟩
    let bound : Bound := {
      predicate := .function above 1, types := some [some .u32]
      length_types := by rintro _ ⟨⟩; rfl }
    let kill : Statement := {
      call, action := .kill, bound := some bound
      arity_bound := by rintro _ ⟨⟩; rfl }
    ∃ g, ofStatements [.unconditional call .log, kill] = .ok g ∧ g.AnswersFitting ∧
      (g.evaluate [.int (-1)]).outcome = .ok [.log, .kill] := by
  intro call above bound kill
  have hname : ∀ s ∈ [.unconditional call .log, kill], s.call.name = call.name :=
    List.forall_mem_cons.mpr ⟨rfl, List.forall_mem_singleton.mpr rfl⟩
  have hbuilt : bound.IsBuilt :=
    ⟨.bound (.predicate (.leaf (.function above) none) (some [.text "u32"])), .bound bound,
      rfl, rfl⟩
  have hanswers : above.Answers 1 := by
    intro values hvalues
    obtain ⟨v, rfl⟩ := List.length_eq_one_iff.mp hvalues
    cases v <;> exact ⟨_, rfl⟩
  have hlog : (Statement.unconditional call .log).IsReliable :=
    ⟨nofun, fun f hf ↦ absurd hf List.not_mem_nil⟩
  have hkill : kill.IsReliable := by
    constructor
    · rintro _ ⟨⟩
      exact hbuilt
    · exact List.forall_mem_singleton.mpr hanswers
  let g : Guard := ⟨call, [.unconditional call .log, kill], hname⟩
  have hg : ofStatements [.unconditional call .log, kill] = .ok g :=
    build_eq_ok.mpr ⟨hname, rfl, rfl⟩
  have hmade : build call [.unconditional call .log, kill] = .ok g ∨
      ofStatements [.unconditional call .log, kill] = .ok g := .inr hg
  have hreliable := List.forall_mem_cons.mpr ⟨hlog, List.forall_mem_singleton.mpr hkill⟩
  refine ⟨g, hg, (answersFitting_iff hmade hreliable).1.mpr ?_, rfl⟩
  exact List.forall_mem_cons.mpr ⟨rfl, List.forall_mem_singleton.mpr rfl⟩

end Guard

end CallGate.Policy
