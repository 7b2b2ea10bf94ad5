import CallGate.Abi.Builtin
import CallGate.Proofs.Policy.Arity
import CallGate.Proofs.Policy.Course

/-!
# When the evaluation of a call fails

A policy that was accepted should have an answer to every call. Apart from what its host functions
do, there are two things that could go wrong: the arguments are not as many as expected, or they
cannot be read at the types that are declared for them.

Inside a guard the first never happens. `Predicate.Takes.passedOn` says so for a predicate whose
parts agree on their number of arguments: it fails only by what it passes on, a fault of a host
function or an argument that is no integer. With `Bound.IsBuilt.isUniform` this goes for every
condition that can be made.

That leaves the first look at the arguments, in `Guard.evaluate`, and it is made with the descriptor
of the guard. A registry knows a descriptor under the same name, but a policy compares names only.
Two registries may know a call by descriptors of different length, and a guard made for one of them
is accepted by a policy on the other. `isTotalOn_iff` shows that there is no other way to fail.
-/

namespace CallGate.Policy

open CallGate.Abi CallGate.Data

/-! ## Reading arguments -/

/-- A value that can be read as an integer. -/
def IsReadable (v : Value) : Prop := ∃ n, v.toInteger = .ok n

theorem readAs_eq_error {type : Option ArgType} {v : Value} {e : PolicyError}
    (h : readAs type v = .error e) : ∃ fault, v.toInteger = .error fault ∧ e = .argument fault := by
  cases type with
  | none => cases h
  | some type =>
    cases hv : v.toInteger with
    | ok n =>
      rw [readAs, hv] at h
      cases h
    | error fault =>
      rw [readAs, hv] at h
      cases h
      exact ⟨fault, rfl, rfl⟩

/-- Reading leaves a value as it is or makes it an integer. -/
theorem eq_or_exists_int_of_readAs {type : Option ArgType} {v w : Value}
    (h : readAs type v = .ok w) : w = v ∨ ∃ n, w = .int n := by
  cases type with
  | none =>
    cases h
    exact .inl rfl
  | some type =>
    cases hv : v.toInteger with
    | ok n =>
      rw [readAs, hv] at h
      cases h
      exact .inr ⟨_, rfl⟩
    | error fault =>
      rw [readAs, hv] at h
      cases h

namespace ParamTypes

variable {types : ParamTypes} {args vs : List Value}

theorem exists_of_read_eq_error {e : PolicyError} (h : types.read args = .error e) :
    ∃ v ∈ args, ∃ fault, v.toInteger = .error fault ∧ e = .argument fault := by
  obtain ⟨⟨type, v⟩, hmem, hread⟩ := exists_of_mapM_eq_error h
  exact ⟨v, (List.of_mem_zip hmem).2, readAs_eq_error hread⟩

theorem mem_or_exists_int_of_read (h : types.read args = .ok vs) {v : Value} (hv : v ∈ vs) :
    v ∈ args ∨ ∃ n, v = .int n := by
  obtain ⟨⟨type, w⟩, hmem, hread⟩ := exists_of_mem_mapM h hv
  rcases eq_or_exists_int_of_readAs hread with rfl | hint
  · exact .inl (List.of_mem_zip hmem).2
  · exact .inr hint

theorem length_of_read (hlength : types.length = args.length) (h : types.read args = .ok vs) :
    vs.length = args.length := by
  rw [← (mapM_eq_ok.mp h).length_eq, List.length_zip, hlength, Nat.min_self]

end ParamTypes

/-! ## Failures that are passed on -/

namespace Predicate

mutual

/-- The host functions that a predicate may call. -/
def leaves : Predicate → List HostFunction
  | function f _ => [f]
  | both left right => left.leaves ++ right.leaves
  | either left right => left.leaves ++ right.leaves
  | all parts _ => leavesOfAll parts
  | typed inner _ => inner.leaves

def leavesOfAll : List Predicate → List HostFunction
  | [] => []
  | p :: ps => p.leaves ++ leavesOfAll ps

end

theorem leaves_subset_leavesOfAll {parts : List Predicate} {p : Predicate} (hp : p ∈ parts) :
    p.leaves ⊆ leavesOfAll parts := by
  induction parts with
  | nil => exact absurd hp List.not_mem_nil
  | cons q qs ih =>
    rw [leavesOfAll]
    rcases List.mem_cons.mp hp with rfl | hp
    · exact List.subset_append_left _ _
    · exact List.Subset.trans (ih hp) (List.subset_append_right _ _)

end Predicate

/-- A failure that an evaluation takes over: one of the functions raised, on as many arguments as
were given and perhaps in a generator, or one of the arguments is no integer. -/
inductive PassedOn (functions : List HostFunction) (args : List Value) : PolicyError → Prop
  | host {f : HostFunction} {values : List Value} {fault passed : HostFault} (hf : f ∈ functions)
      (hlength : values.length = args.length) (hraise : (f.respond values).answer = .error fault)
      (hpassed : passed = fault ∨ passed = fault.outOfGenerator) :
      PassedOn functions args (.host passed)
  | argument {v : Value} {fault : IntegerFault} (hv : v ∈ args)
      (hfault : v.toInteger = .error fault) : PassedOn functions args (.argument fault)

namespace PassedOn

variable {functions functions' : List HostFunction} {args : List Value} {e : PolicyError}

theorem mono (h : PassedOn functions args e) (hsub : functions ⊆ functions') :
    PassedOn functions' args e := by
  cases h with
  | host hf hlength hraise hpassed => exact .host (hsub hf) hlength hraise hpassed
  | argument hv hfault => exact .argument hv hfault

theorem outOfGenerator (h : PassedOn functions args e) :
    PassedOn functions args e.outOfGenerator := by
  cases h with
  | argument hv hfault => exact .argument hv hfault
  | @host _ _ fault _ hf hlength hraise hpassed =>
    refine .host hf hlength hraise (.inr ?_)
    rcases hpassed with rfl | rfl
    · rfl
    · exact fault.outOfGenerator_outOfGenerator

/-- Arguments fail in no way after reading that they would not have failed in before: what reading
puts in place of an argument is an integer. -/
theorem of_read {types : ParamTypes} {vs : List Value} (hlength : types.length = args.length)
    (hread : types.read args = .ok vs) (h : PassedOn functions vs e) :
    PassedOn functions args e := by
  cases h with
  | host hf hvalues hraise hpassed =>
    exact .host hf (hvalues.trans (ParamTypes.length_of_read hlength hread)) hraise hpassed
  | argument hv hfault =>
    rcases ParamTypes.mem_or_exists_int_of_read hread hv with hv | ⟨n, rfl⟩
    · exact .argument hv hfault
    · cases hfault

end PassedOn

theorem HostFunction.passedOn_of_call {f : HostFunction} {args : List Value} {e : PolicyError}
    (h : (f.call args).outcome = .error e) : PassedOn [f] args e := by
  rw [call] at h
  cases hanswer : (f.respond args).answer with
  | ok v =>
    simp only [hanswer] at h
    cases h
  | error fault =>
    simp only [hanswer] at h
    cases h
    exact .host (List.mem_singleton_self f) rfl hanswer (.inl rfl)

/-! ## Predicates and bounds -/

namespace Predicate

/-- What a list of predicates fails with comes from one of them, and out of a generator. -/
theorem exists_of_allHold_eq_error {args : List Value} {parts : List Predicate} {e : PolicyError}
    (h : (allHold args parts).outcome = .error e) :
    ∃ p ∈ parts, ∃ raised, (p.holds args).outcome = .error raised ∧ raised.outOfGenerator = e := by
  induction parts with
  | nil =>
    rw [allHold] at h
    cases h
  | cons p ps ih =>
    rw [allHold, Run.bind_outcome_eq_error] at h
    rcases h with hp | ⟨v, -, h⟩
    · exact ⟨p, List.mem_cons_self, mapError_eq_error.mp hp⟩
    · cases v with
      | false => cases h
      | true =>
        obtain ⟨q, hq, hfails⟩ := ih h
        exact ⟨q, List.mem_cons_of_mem p hq, hfails⟩

/-- **A number of arguments is never found wrong.** A predicate whose parts take `n` arguments, and
that is given as many, fails only by what it passes on. -/
theorem Takes.passedOn {n : ℤ} {p : Predicate} (hp : p.Takes n) {args : List Value}
    (hargs : (args.length : ℤ) = n) {e : PolicyError} (h : (p.holds args).outcome = .error e) :
    PassedOn p.leaves args e := by
  -- Behind a typed predicate the arguments are other ones, and in a generator the failure is; so
  -- the induction is for all of them.
  induction hp generalizing args e with
  | function f =>
    rw [holds] at h
    exact f.passedOn_of_call h
  | both _ _ ihleft ihright =>
    rw [holds, Run.bind_outcome_eq_error] at h
    rw [leaves]
    rcases h with hl | ⟨v, -, h⟩
    · exact (ihleft hargs hl).mono (List.subset_append_left _ _)
    · cases v with
      | false => cases h
      | true => exact (ihright hargs h).mono (List.subset_append_right _ _)
  | either _ _ ihleft ihright =>
    rw [holds, Run.bind_outcome_eq_error] at h
    rw [leaves]
    rcases h with hl | ⟨v, -, h⟩
    · exact (ihleft hargs hl).mono (List.subset_append_left _ _)
    · cases v with
      | false => exact (ihright hargs h).mono (List.subset_append_right _ _)
      | true => cases h
  | all _ ih =>
    rw [holds] at h
    rw [leaves]
    obtain ⟨p, hp, raised, hfails, rfl⟩ := exists_of_allHold_eq_error h
    exact (ih p hp hargs hfails).outOfGenerator.mono (leaves_subset_leavesOfAll hp)
  | @typed _ types hinner hlength ih =>
    have hsame : types.length = args.length := by omega
    rw [holds, Run.bind_outcome_eq_error] at h
    rw [leaves]
    rcases h with harity | ⟨_, -, h⟩
    · rw [Run.outcome_liftM, expectArity, if_pos (hinner.arity_eq.trans hargs.symm)] at harity
      cases harity
    · rw [Run.bind_outcome_eq_error] at h
      rcases h with hread | ⟨vs, hread, h⟩
      · obtain ⟨v, hv, fault, hfault, rfl⟩ := ParamTypes.exists_of_read_eq_error hread
        exact .argument hv hfault
      · have hvs : (vs.length : ℤ) = n := by
          rw [ParamTypes.length_of_read hsame hread]
          exact hargs
        exact (ih hvs h).of_read hsame hread

end Predicate

namespace Bound

variable {b : Bound} {args : List Value}

/-- A bound that is given as many arguments as it takes does what it does as a predicate. -/
theorem holds_eq_holds_toPredicate (hargs : b.arity = args.length) :
    b.holds args = b.toPredicate.holds args := by
  obtain ⟨predicate, types, hlength⟩ := b
  have hok : expectArity none predicate.arity args.length = .ok () := expectArity_eq_ok.mpr hargs
  cases types with
  | none =>
    simp only [holds, read, arity, hok, toPredicate]
    rfl
  | some types =>
    simp only [holds, read, arity, hok, toPredicate, Predicate.holds]
    rfl

theorem leaves_toPredicate (b : Bound) : b.toPredicate.leaves = b.predicate.leaves := by
  rw [toPredicate]
  cases b.types with
  | none => rfl
  | some types => rw [Predicate.leaves]

theorem passedOn_of_holds (hb : b.IsUniform) (hargs : b.arity = args.length) {e : PolicyError}
    (h : (b.holds args).outcome = .error e) : PassedOn b.predicate.leaves args e := by
  have htakes : b.toPredicate.Takes b.arity := b.arity_toPredicate ▸ hb.toPredicate
  rw [holds_eq_holds_toPredicate hargs] at h
  rw [← leaves_toPredicate]
  exact htakes.passedOn hargs.symm h

end Bound

/-! ## Statements and guards -/

/-- The host functions that the condition of a statement may call. -/
def Statement.leaves (s : Statement) : List HostFunction :=
  s.bound.elim [] fun b ↦ b.predicate.leaves

theorem Statement.passedOn_of_triggers {s : Statement} (hs : ∀ b ∈ s.bound, b.IsUniform)
    {args : List Value} (hargs : (s.call.arity : ℤ) = args.length) {e : PolicyError}
    (h : (s.triggers args).outcome = .error e) : PassedOn s.leaves args e := by
  rw [triggers, expectArity, if_pos hargs, Run.bind_outcome_eq_error] at h
  rw [leaves]
  rcases h with h | ⟨_, -, h⟩
  · cases h
  · cases hbound : s.bound with
    | none =>
      rw [hbound] at h
      cases h
    | some b =>
      rw [hbound] at h
      have harity : b.arity = args.length := (s.arity_bound b hbound).trans hargs
      exact Bound.passedOn_of_holds (hs b hbound) harity h

namespace Guard

variable {g : Guard} {args : List Value} {e : PolicyError}

theorem exists_of_triggered_eq_error {statements : List Statement}
    (h : (triggered args statements).outcome = .error e) :
    ∃ s ∈ statements, (s.triggers args).outcome = .error e := by
  induction statements with
  | nil =>
    rw [triggered] at h
    cases h
  | cons s ss ih =>
    rw [triggered, Run.bind_outcome_eq_error] at h
    rcases h with hs | ⟨v, -, h⟩
    · exact ⟨s, List.mem_cons_self, hs⟩
    · rw [Run.bind_outcome_eq_error] at h
      rcases h with hss | ⟨rest, -, h⟩
      · obtain ⟨t, ht, hfails⟩ := ih hss
        exact ⟨t, List.mem_cons_of_mem s ht, hfails⟩
      · cases h

theorem evaluate_of_arity_ne (h : (g.call.arity : ℤ) ≠ args.length) :
    (g.evaluate args).outcome =
      .error (.arityMismatch (some g.call.name) g.call.arity args.length) := by
  rw [evaluate, expectArity, if_neg h]
  rfl

theorem exists_of_evaluate_eq_error (hargs : (g.call.arity : ℤ) = args.length)
    (h : (g.evaluate args).outcome = .error e) :
    ∃ s ∈ g.statements, (s.triggers args).outcome = .error e := by
  rw [evaluate, expectArity, if_pos hargs, Run.bind_outcome_eq_error] at h
  rcases h with h | ⟨_, -, h⟩
  · cases h
  · exact exists_of_triggered_eq_error h

end Guard

/-! ## Policies -/

theorem evaluate_eq_error {p : Policy} {name : String} {args : List Value} {e : PolicyError} :
    (p.evaluate name args).outcome = .error e ↔
      ∃ g ∈ p.guard? name, (g.evaluate args).outcome = .error e := by
  rw [evaluate]
  cases p.guard? name with
  | none => simp
  | some g => simp [Run.bind_outcome_eq_error, -bind_pure_comp]

theorem ne_nil_of_evaluate {p : Policy} {name : String} {args : List Value} {actions : List Action}
    (h : (p.evaluate name args).outcome = .ok actions) : actions ≠ [] := by
  obtain ⟨-, verdicts, -, rfl⟩ := evaluate_eq_ok.mp h
  rw [answerUnder]
  split
  · exact List.cons_ne_nil _ _
  · next hne => exact hne

theorem mem_entries_of_guard? {default : Action} {table : GuardTable} {registry : Registry}
    {p : Policy} (hp : build default table registry = .ok p) {name : String} {g : Guard}
    (hg : g ∈ p.guard? name) : (name, g) ∈ table.entries := by
  obtain ⟨-, -, hguards, -⟩ := build_eq_ok.mp hp
  have hmem : (name, g) ∈ p.guards.entries := GuardTable.find?_eq_some.mp hg
  rw [hguards] at hmem
  exact (List.mem_filter.mp hmem).1

/-- A host function that does not fail on `n` arguments. -/
def HostFunction.Answers (f : HostFunction) (n : ℕ) : Prop :=
  ∀ values : List Value, values.length = n → ∃ v, (f.respond values).answer = .ok v

/-- Guards whose statements are about the very call of the guard, with bounds that can be made. -/
structure GuardTable.IsProper (t : GuardTable) : Prop where
  call_eq : ∀ e ∈ t.entries, ∀ s ∈ e.2.statements, s.call = e.2.call
  isBuilt : ∀ e ∈ t.entries, ∀ s ∈ e.2.statements, ∀ b ∈ s.bound, b.IsBuilt

/-- Every call of a name, with as many arguments as the registry says, is decided about: no number
of arguments is found wrong, whatever the arguments are, and if they are integers there are
actions. -/
def IsTotalOn (p : Policy) (name : String) : Prop :=
  ∀ call ∈ p.registry.find? name, ∀ args : List Value, args.length = call.arity →
    (∀ subject expected actual,
      (p.evaluate name args).outcome ≠ .error (.arityMismatch subject expected actual)) ∧
    ((∀ v ∈ args, IsReadable v) →
      ∃ actions, (p.evaluate name args).outcome = .ok actions ∧ actions ≠ [])

/-- **When a policy decides about all calls of a name.** Where host functions do not fail, a policy
that was accepted decides about a call of its registry exactly if the guard of the call, if there is
one, was made for a descriptor with as many arguments as that of the registry. -/
theorem isTotalOn_iff {default : Action} {table : GuardTable} {registry : Registry} {p : Policy}
    (hp : build default table registry = .ok p) (htable : table.IsProper)
    (hanswers : ∀ e ∈ table.entries, ∀ s ∈ e.2.statements, ∀ f ∈ s.leaves,
      f.Answers s.call.arity)
    {name : String} {call : Descriptor} (hcall : registry.find? name = some call) :
    p.IsTotalOn name ↔ ∀ g ∈ p.guard? name, g.call.arity = call.arity := by
  have hregistry : p.registry = registry := (build_eq_ok.mp hp).2.2.2
  constructor
  · intro htotal g hg
    -- One call is enough to find out, and its arguments may be anything.
    by_contra hne
    have hargs : (List.replicate call.arity Value.null).length = call.arity :=
      List.length_replicate
    have hmismatch : (g.call.arity : ℤ) ≠ (List.replicate call.arity Value.null).length := by
      rw [hargs]
      exact_mod_cast hne
    have hfails := evaluate_eq_error.mpr ⟨g, hg, Guard.evaluate_of_arity_ne hmismatch⟩
    exact (htotal call (hregistry ▸ hcall) _ hargs).1 _ _ _ hfails
  · intro hsame call' hcall' args hargs
    obtain rfl : call = call' := Option.some.inj (hcall.symm.trans (hregistry ▸ hcall'))
    have hpassed {e : PolicyError} (he : (p.evaluate name args).outcome = .error e) :
        ∃ s : Statement, (∀ f ∈ s.leaves, f.Answers args.length) ∧ PassedOn s.leaves args e := by
      obtain ⟨g, hg, he⟩ := evaluate_eq_error.mp he
      have hmem := mem_entries_of_guard? hp hg
      have harity : g.call.arity = args.length := (hsame g hg).trans hargs.symm
      obtain ⟨s, hs, hfails⟩ := Guard.exists_of_evaluate_eq_error (by exact_mod_cast harity) he
      have hown : s.call.arity = args.length := by
        rw [htable.call_eq _ hmem s hs]
        exact harity
      have huniform : ∀ b ∈ s.bound, b.IsUniform := fun b hb ↦
        (htable.isBuilt _ hmem s hs b hb).isUniform
      exact ⟨s, hown ▸ hanswers _ hmem s hs,
        s.passedOn_of_triggers huniform (by exact_mod_cast hown) hfails⟩
    constructor
    · intro subject expected actual he
      obtain ⟨s, -, hmismatch⟩ := hpassed he
      cases hmismatch
    · intro hreadable
      cases he : (p.evaluate name args).outcome with
      | ok actions => exact ⟨actions, rfl, ne_nil_of_evaluate he⟩
      | error e =>
        obtain ⟨s, hquiet, hpass⟩ := hpassed he
        cases hpass with
        | host hf hlength hraise _ =>
          obtain ⟨v, hv⟩ := hquiet _ hf _ hlength
          rw [hraise] at hv
          cases hv
        | argument hv hfault =>
          obtain ⟨n, hn⟩ := hreadable _ hv
          rw [hfault] at hn
          cases hn

/-- A guard for the socket call of one registry in a policy on the other: the call has two arguments
there and three here, and is refused with three. -/
theorem not_isTotalOn_other_registry :
    let accept : Descriptor := ⟨"sock_accept", [.typed "fd" .u32, .typed "accepted_fd_ptr" .u32]⟩
    let guard : Guard := {
      call := accept, statements := [.unconditional accept .log]
      name_statements := List.forall_mem_singleton.mpr rfl }
    let table : GuardTable := .ofList [("sock_accept", guard)]
    Registry.wasmEdge.find? "sock_accept" = some accept ∧
    (Registry.preview1.find? "sock_accept").map Descriptor.arity = some 3 ∧
    ∃ p, build .allow table .preview1 = .ok p ∧
      (p.evaluate "sock_accept" [.int 3, .int 0, .int 0]).outcome =
        .error (.arityMismatch (some "sock_accept") 2 3) ∧
      ¬ p.IsTotalOn "sock_accept" := by
  intro accept guard table
  have hdeclared : (Registry.preview1.find? "sock_accept").map Descriptor.arity = some 3 := by
    decide +kernel
  obtain ⟨call, hcall, harity⟩ := Option.map_eq_some_iff.mp hdeclared
  have hknown := Registry.contains_of_find? hcall
  let p : Policy := ⟨.allow, table, .preview1,
    List.forall_mem_singleton.mpr ⟨hknown, rfl, Bool.false_ne_true⟩⟩
  have hp : build .allow table .preview1 = .ok p :=
    build_eq_ok.mpr ⟨List.forall_mem_singleton.mpr ⟨hknown, rfl⟩, rfl, rfl, rfl⟩
  have hfails : (p.evaluate "sock_accept" [.int 3, .int 0, .int 0]).outcome =
      .error (.arityMismatch (some "sock_accept") 2 3) := rfl
  refine ⟨by decide +kernel, hdeclared, p, hp, hfails, fun htotal ↦ ?_⟩
  exact (htotal call hcall [.int 3, .int 0, .int 0] harity.symm).1 _ _ _ hfails

/-- A guard with a condition at a type: descriptors above the standard ones are not closed. -/
theorem isTotalOn_fd_close :
    let call : Descriptor := ⟨"fd_close", [.typed "fd" .u32]⟩
    let above : HostFunction := ⟨none, some [.positional], fun
      | [.int fd] => ⟨[], .ok (2 < fd)⟩
      | _ => ⟨[], .ok false⟩⟩
    let bound : Bound := {
      predicate := .function above 1, types := some [some .u32]
      length_types := by rintro _ ⟨⟩; rfl }
    let statement : Statement := {
      call, action := .kill, bound := some bound
      arity_bound := by rintro _ ⟨⟩; rfl }
    let guard : Guard := { call, statements := [statement], name_statements := by simp [statement] }
    let table : GuardTable := .ofList [("fd_close", guard)]
    ∃ p, build .allow table .preview1 = .ok p ∧ p.IsTotalOn "fd_close" ∧
      (p.evaluate "fd_close" [.int (-1)]).outcome = .ok [.kill] := by
  intro call above bound statement guard table
  have hcall : Registry.preview1.find? "fd_close" = some call := by decide +kernel
  have hknown := Registry.contains_of_find? hcall
  have hbuilt : bound.IsBuilt :=
    ⟨.bound (.predicate (.leaf (.function above) none) (some [.text "u32"])), .bound bound,
      rfl, rfl⟩
  have hanswers : above.Answers 1 := by
    intro values hvalues
    obtain ⟨v, rfl⟩ := List.length_eq_one_iff.mp hvalues
    cases v <;> exact ⟨_, rfl⟩
  have htable : table.IsProper := by
    constructor
    · exact List.forall_mem_singleton.mpr (List.forall_mem_singleton.mpr rfl)
    · refine List.forall_mem_singleton.mpr (List.forall_mem_singleton.mpr ?_)
      rintro _ ⟨⟩
      exact hbuilt
  let p : Policy := ⟨.allow, table, .preview1,
    List.forall_mem_singleton.mpr ⟨hknown, rfl, Bool.false_ne_true⟩⟩
  have hp : build .allow table .preview1 = .ok p :=
    build_eq_ok.mpr ⟨List.forall_mem_singleton.mpr ⟨hknown, rfl⟩, rfl, rfl, rfl⟩
  refine ⟨p, hp, (isTotalOn_iff hp htable ?_ hcall).mpr ?_, rfl⟩
  · exact List.forall_mem_singleton.mpr (List.forall_mem_singleton.mpr
      (List.forall_mem_singleton.mpr hanswers))
  · rintro g ⟨⟩
    rfl

end CallGate.Policy
