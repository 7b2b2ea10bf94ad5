import CallGate.Proofs.Policy.Building
import CallGate.Proofs.Policy.FittingCalls
import CallGate.Proofs.Policy.Retyping

/-!
# Editing a statement

A statement is made without a condition and then edited: it is given another condition, or its
condition other types. An edit makes a new statement or fails, and if the failure is caught, the old
statement is still there. `after_edits` says what holds of the statement at any point of such a
chain.

Nothing adds up. A condition takes the place of the one before, and other types leave its predicate
as it is. So the last condition that could be given is all that there is to know of a chain:
`Follows` says that its predicate is the predicate of the statement, and whether there is one decides
whether a statement that kills is fatal. The number of arguments is looked at by both kinds of edit.
What the statement is given always takes as many as its call has, so that evaluating it never finds
their number wrong once the arguments themselves have been counted.
-/

namespace CallGate.Policy

open CallGate.Abi CallGate.Data

/-! ## Conditions and types that cannot be had -/

/-- Failures other than that a number of arguments is wrong. -/
def PolicyError.IsOther (e : PolicyError) : Prop :=
  ∀ call expected actual, e ≠ .arityMismatch call expected actual

theorem HostFunction.isOther_of_arity {f : HostFunction} {e : PolicyError}
    (h : f.arity = .error e) : e.IsOther := by
  rw [arity] at h
  split at h
  · cases h
    exact nofun
  · split at h
    · cases h
      exact nofun
    · cases h

theorem BoundLike.isOther_of_toBound? {x : BoundLike} {e : PolicyError}
    (h : x.toBound? = .error e) : e.IsOther := by
  unfold toBound? at h
  split at h
  · cases h
  · cases h
  · cases h
  · next o _ =>
    rcases bind_eq_error.mp h with h | ⟨p, -, h⟩
    · cases o with
      | value v =>
        cases h
        exact nofun
      | function f =>
        cases hf : f.arity with
        | ok n =>
          rw [Operand.predicate, hf] at h
          cases h
        | error e' =>
          rw [Operand.predicate, hf] at h
          cases h
          exact f.isOther_of_arity hf
    · cases h

theorem Bound.isOther_of_typeOfValue {v : Value} {e : PolicyError}
    (h : typeOfValue v = .error e) : e.IsOther := by
  unfold typeOfValue at h
  split at h
  · cases h
  · split at h
    · cases h
    · cases h
      exact nofun

/-- As many types as arguments can only be refused since one of them is no type. -/
theorem Bound.isOther_of_withTypes {b : Bound} {names : List Value} {e : PolicyError}
    (hlength : (names.length : ℤ) = b.arity) (h : b.withTypes (some names) = .error e) :
    e.IsOther := by
  cases hnames : names.mapM typeOfValue with
  | error e' =>
    obtain ⟨v, -, hv⟩ := exists_of_mapM_eq_error hnames
    rw [withTypes, ofPredicate, hnames] at h
    cases h
    exact isOther_of_typeOfValue hv
  | ok types =>
    rw [(mapM_eq_ok.mp hnames).length_eq] at hlength
    obtain ⟨c, hc, -⟩ := exists_ofPredicate hnames hlength
    rw [withTypes, hc] at h
    cases h

/-! ## Single edits -/

namespace Statement

variable {s s' : Statement} {x : BoundLike} {names : List Value}

theorem build_eq_error {call : Descriptor} {action : Action} {bound : Option Bound}
    {e : PolicyError} :
    build call action bound = .error e ↔
      ∃ b, bound = some b ∧ b.arity ≠ call.arity ∧
        e = .arityMismatch (some call.name) call.arity b.arity := by
  cases bound with
  | none => simp [build]
  | some b =>
    by_cases hb : b.arity = call.arity
    · simp [build, hb]
    · simp only [build, hb, dite_false, Except.error.injEq, Option.some.injEq]
      constructor
      · rintro rfl
        exact ⟨b, rfl, hb, rfl⟩
      · rintro ⟨_, rfl, -, rfl⟩
        rfl

/-- **A condition takes the place of the one before.** -/
theorem withBound_eq_ok :
    s.withBound x = .ok s' ↔
      s'.call = s.call ∧ s'.action = s.action ∧ x.toBound? = .ok s'.bound := by
  simp only [withBound, bind_eq_ok, build_eq_ok]
  constructor
  · rintro ⟨b, hb, hcall, haction, rfl⟩
    exact ⟨hcall, haction, hb⟩
  · rintro ⟨hcall, haction, hb⟩
    exact ⟨_, hb, hcall, haction, rfl⟩

/-- A condition is refused for its number of arguments, and for nothing else by that name. -/
theorem withBound_eq_arityMismatch {call : Option String} {n m : ℤ} :
    s.withBound x = .error (.arityMismatch call n m) ↔
      ∃ b, x.toBound? = .ok (some b) ∧ b.arity ≠ s.call.arity ∧
        call = some s.call.name ∧ n = s.call.arity ∧ m = b.arity := by
  simp only [withBound, bind_eq_error, build_eq_error, PolicyError.arityMismatch.injEq]
  constructor
  · rintro (h | ⟨_, hx, b, rfl, hne, heq⟩)
    · exact absurd rfl (BoundLike.isOther_of_toBound? h call n m)
    · exact ⟨b, hx, hne, heq⟩
  · rintro ⟨b, hx, hne, heq⟩
    exact .inr ⟨_, hx, b, rfl, hne, heq⟩

/-- Other types are for the condition if there is one, and otherwise for nothing. -/
theorem withTypes_of_length_eq (h : names.length = s.call.arity) :
    s.withTypes names =
      match s.bound with
      | none => .ok s
      | some b => b.withTypes (some names) >>= fun c ↦ build s.call s.action (some c) := by
  have hok : (s.call.arity : ℤ) = names.length := by exact_mod_cast h.symm
  rw [withTypes, expectArity, if_pos hok]
  cases s.bound with
  | none => rfl
  | some b => rfl

theorem withTypes_of_length_ne (h : names.length ≠ s.call.arity) :
    s.withTypes names =
      .error (.arityMismatch (some s.call.name) s.call.arity names.length) := by
  have hne : ¬ (s.call.arity : ℤ) = names.length := by exact_mod_cast h.symm
  rw [withTypes, expectArity, if_neg hne]
  rfl

/-- Other types leave the call, the action and the predicate as they are. -/
theorem same_of_withTypes (h : s.withTypes names = .ok s') :
    s'.call = s.call ∧ s'.action = s.action ∧
      s'.bound.map (·.predicate) = s.bound.map (·.predicate) := by
  by_cases hlength : names.length = s.call.arity
  · rw [withTypes_of_length_eq hlength] at h
    cases hbound : s.bound with
    | none =>
      rw [hbound] at h
      cases h
      exact ⟨rfl, rfl, by rw [hbound]⟩
    | some b =>
      simp only [hbound, bind_eq_ok, build_eq_ok] at h
      obtain ⟨c, hc, hcall, haction, hbound'⟩ := h
      refine ⟨hcall, haction, ?_⟩
      rw [hbound', Option.map_some, Option.map_some, Bound.predicate_of_ofPredicate hc]
  · rw [withTypes_of_length_ne hlength] at h
    cases h

theorem withTypes_eq_arityMismatch {call : Option String} {n m : ℤ} :
    s.withTypes names = .error (.arityMismatch call n m) ↔
      names.length ≠ s.call.arity ∧
        call = some s.call.name ∧ n = s.call.arity ∧ m = names.length := by
  by_cases hlength : names.length = s.call.arity
  · refine iff_of_false (fun h ↦ ?_) fun h ↦ h.1 hlength
    rw [withTypes_of_length_eq hlength] at h
    cases hbound : s.bound with
    | none =>
      rw [hbound] at h
      cases h
    | some b =>
      have harity : b.arity = s.call.arity := s.arity_bound b hbound
      simp only [hbound, bind_eq_error, build_eq_error, Option.some.injEq] at h
      rcases h with h | ⟨c, hc, _, rfl, hne, -⟩
      · have hfits : (names.length : ℤ) = b.arity := by rw [harity, hlength]
        exact Bound.isOther_of_withTypes hfits h call n m rfl
      · refine hne ?_
        rw [Bound.arity, Bound.predicate_of_ofPredicate hc]
        exact harity
  · rw [withTypes_of_length_ne hlength]
    simp [hlength, eq_comm]

/-! ## Chains -/

/-- The condition that an edit gives to statements about a call, which may be none. Other types give
no condition, and neither does a condition that cannot be made or takes another number of arguments.
-/
def Edit.condition? (call : Descriptor) : Edit → Option (Option Bound)
  | .bound x =>
    match x.toBound? with
    | .ok b => if ∀ c ∈ b, c.arity = call.arity then some b else none
    | .error _ => none
  | .types _ => none

/-- The last condition that some edits give to statements about a call, and none if there is no such
edit. -/
def lastCondition (call : Descriptor) (es : List Edit) : Option Bound :=
  (es.filterMap (Edit.condition? call)).getLastD none

/-- The statement that an edit leaves behind, whether it fails or not. -/
def step (s : Statement) (e : Edit) : Statement :=
  match e.apply s with
  | .ok s' => s'
  | .error _ => s

/-- The statement after some edits. A failure of one of them does not keep the next from being
carried out. -/
def after (s : Statement) (es : List Edit) : Statement := es.foldl step s

@[simp] theorem after_nil (s : Statement) : s.after [] = s := rfl

@[simp] theorem after_cons (s : Statement) (e : Edit) (es : List Edit) :
    s.after (e :: es) = (s.step e).after es := rfl

theorem step_of_ok {e : Edit} (h : e.apply s = .ok s') : s.step e = s' := by
  rw [step, h]

theorem step_of_error {e : Edit} {fault : PolicyError} (h : e.apply s = .error fault) :
    s.step e = s := by
  rw [step, h]

/-- The edits that give a condition are those that succeed in it. -/
theorem condition?_eq_some {b : Option Bound} :
    Edit.condition? s.call (.bound x) = some b ↔
      ∃ s', s.withBound x = .ok s' ∧ s'.bound = b := by
  simp only [Edit.condition?, withBound_eq_ok]
  cases hx : x.toBound? with
  | error e => simp
  | ok b' =>
    simp only [Option.ite_none_right_eq_some, Option.some.injEq, Except.ok.injEq]
    constructor
    · rintro ⟨harity, rfl⟩
      exact ⟨⟨s.call, s.action, b', harity⟩, ⟨rfl, rfl, rfl⟩, rfl⟩
    · rintro ⟨s', ⟨hcall, -, rfl⟩, rfl⟩
      exact ⟨hcall ▸ s'.arity_bound, rfl⟩

/-- A statement is what some edits say: it is about the call and takes the action that it began
with, and its predicate is that of the last condition that could be given. -/
structure Follows (call : Descriptor) (action : Action) (es : List Edit) (s : Statement) :
    Prop where
  call_eq : s.call = call
  action_eq : s.action = action
  predicate_eq : s.bound.map (·.predicate) = (lastCondition call es).map (·.predicate)

namespace Follows

variable {call : Descriptor} {action : Action} {es : List Edit}

theorem start (call : Descriptor) (action : Action) :
    Follows call action [] (unconditional call action) := ⟨rfl, rfl, rfl⟩

/-- An edit that gives no condition, and does not change the predicate. -/
theorem keep (h : Follows call action es s) {e : Edit} (hnone : e.condition? call = none)
    (hcall : s'.call = s.call) (haction : s'.action = s.action)
    (hpredicate : s'.bound.map (·.predicate) = s.bound.map (·.predicate)) :
    Follows call action (es ++ [e]) s' := by
  have hlast : lastCondition call (es ++ [e]) = lastCondition call es := by
    simp [lastCondition, List.filterMap_append, hnone]
  exact ⟨hcall.trans h.call_eq, haction.trans h.action_eq,
    hlast ▸ hpredicate.trans h.predicate_eq⟩

/-- What one edit preserves. -/
theorem step (h : Follows call action es s) (e : Edit) :
    Follows call action (es ++ [e]) (s.step e) := by
  cases happly : e.apply s with
  | error fault =>
    have hnone : e.condition? call = none := by
      rw [← h.call_eq]
      cases e with
      | types names => rfl
      | bound x =>
        rw [Option.eq_none_iff_forall_ne_some]
        intro b hb
        obtain ⟨s', hs', -⟩ := condition?_eq_some.mp hb
        rw [Edit.apply, hs'] at happly
        cases happly
    rw [step_of_error happly]
    exact h.keep hnone rfl rfl rfl
  | ok s' =>
    rw [step_of_ok happly]
    cases e with
    | types names =>
      obtain ⟨hcall, haction, hpredicate⟩ := same_of_withTypes happly
      exact h.keep rfl hcall haction hpredicate
    | bound x =>
      have hsome : Edit.condition? call (.bound x) = some s'.bound := by
        rw [← h.call_eq]
        exact condition?_eq_some.mpr ⟨s', happly, rfl⟩
      obtain ⟨hcall, haction, -⟩ := withBound_eq_ok.mp happly
      have hlast : lastCondition call (es ++ [.bound x]) = s'.bound := by
        simp [lastCondition, List.filterMap_append, hsome]
      exact ⟨hcall.trans h.call_eq, haction.trans h.action_eq, by rw [hlast]⟩

/-- What a chain of edits preserves. -/
theorem after (h : Follows call action es s) (es' : List Edit) :
    Follows call action (es ++ es') (s.after es') := by
  induction es' generalizing es s with
  | nil => simpa using h
  | cons e es' ih => simpa using ih (h.step e)

theorem isUnconditional_iff (h : Follows call action es s) :
    s.isUnconditional = true ↔ lastCondition call es = none := by
  rw [isUnconditional, Option.isNone_iff_eq_none, ← Option.map_eq_none_iff, h.predicate_eq,
    Option.map_eq_none_iff]

theorem isFatal_iff (h : Follows call action es s) :
    s.isFatal = true ↔ action = .kill ∧ lastCondition call es = none := by
  rw [isFatal, Bool.and_eq_true, h.isUnconditional_iff, h.action_eq, Action.isKill, beq_iff_eq]

end Follows

/-! ## What a statement is good for at any time -/

/-- How a statement takes one more edit. -/
structure TakesEdits (s : Statement) : Prop where
  replaces : ∀ (x : BoundLike) (s' : Statement), s.withBound x = .ok s' ↔
    s'.call = s.call ∧ s'.action = s.action ∧ x.toBound? = .ok s'.bound
  refuses_bound : ∀ (x : BoundLike) (call : Option String) (n m : ℤ),
    s.withBound x = .error (.arityMismatch call n m) ↔ ∃ b, x.toBound? = .ok (some b) ∧
      b.arity ≠ s.call.arity ∧ call = some s.call.name ∧ n = s.call.arity ∧ m = b.arity
  keeps : ∀ (names : List Value) (s' : Statement), s.withTypes names = .ok s' →
    s'.call = s.call ∧ s'.action = s.action ∧ s'.isUnconditional = s.isUnconditional
  refuses_types : ∀ (names : List Value) (call : Option String) (n m : ℤ),
    s.withTypes names = .error (.arityMismatch call n m) ↔ names.length ≠ s.call.arity ∧
      call = some s.call.name ∧ n = s.call.arity ∧ m = names.length

theorem takesEdits (s : Statement) : s.TakesEdits where
  replaces _ _ := withBound_eq_ok
  refuses_bound _ _ _ _ := withBound_eq_arityMismatch
  keeps names s' h := by
    obtain ⟨hcall, haction, hpredicate⟩ := same_of_withTypes h
    refine ⟨hcall, haction, ?_⟩
    rw [isUnconditional, isUnconditional, ← Option.isNone_map, hpredicate, Option.isNone_map]
  refuses_types _ _ _ _ := withTypes_eq_arityMismatch

/-- A statement counts the arguments it is given, and after that their number is not found wrong. -/
structure CountsArguments (s : Statement) : Prop where
  refuses : ∀ args : List Value, args.length ≠ s.call.arity →
    s.triggers args =
      ⟨[], .error (.arityMismatch (some s.call.name) s.call.arity args.length)⟩
  passes : ∀ args : List Value, args.length = s.call.arity →
    ∀ call n m, (s.triggers args).outcome ≠ .error (.arityMismatch call n m)

theorem countsArguments (hs : ∀ b ∈ s.bound, b.IsUniform) : s.CountsArguments where
  refuses args hargs := by
    have hne : ¬ (s.call.arity : ℤ) = args.length := by exact_mod_cast hargs.symm
    rw [triggers, expectArity, if_neg hne]
    rfl
  passes args hargs call n m h := by
    cases s.passedOn_of_triggers hs (by exact_mod_cast hargs.symm) h

/-- The bound that an edit hands over, if it does, has parts that agree on the number of their
arguments. Of what can be made this is so. -/
def Edit.IsUniform (e : Edit) : Prop := ∀ b, e = .bound (.bound b) → b.IsUniform

theorem Edit.isUniform_of_condition? {call : Descriptor} {e : Edit} {b : Bound}
    (he : e.IsUniform) (h : e.condition? call = some (some b)) : b.IsUniform := by
  cases e with
  | types names => cases h
  | bound x =>
    obtain ⟨s', hs', hb⟩ := condition?_eq_some (s := unconditional call .allow).mp h
    obtain ⟨-, -, hx⟩ := withBound_eq_ok.mp hs'
    rw [hb] at hx
    cases x with
    | absent => cases hx
    | bound c =>
      cases hx
      exact he b rfl
    | operand o => exact BoundLike.isUniform_of_operand hx

theorem isUniform_of_lastCondition {call : Descriptor} {es : List Edit} {b : Bound}
    (hes : ∀ e ∈ es, e.IsUniform) (h : lastCondition call es = some b) : b.IsUniform := by
  have hmem : some b ∈ es.filterMap (Edit.condition? call) := by
    rw [lastCondition, List.getLastD_eq_getLast?] at h
    cases hlast : (es.filterMap (Edit.condition? call)).getLast? with
    | none =>
      rw [hlast] at h
      cases h
    | some c =>
      rw [hlast, Option.getD_some] at h
      exact h ▸ List.mem_of_getLast? hlast
  obtain ⟨e, he, hb⟩ := List.mem_filterMap.mp hmem
  exact Edit.isUniform_of_condition? (hes e he) hb

/-- **What a chain of edits comes to.** It begins with the unconditional statement, and edits that
fail are passed over. Whatever the edits are, the statement is about the same call and takes the
same action, and its condition, if it has one, takes as many arguments as the call has and has the
predicate of the last condition that could be given. It is fatal if its action is to kill and this
condition was none. It takes further edits as is said by `TakesEdits` and counts arguments. -/
theorem after_edits (call : Descriptor) (action : Action) {es : List Edit}
    (hes : ∀ e ∈ es, e.IsUniform) :
    let s := (unconditional call action).after es
    s.call = call ∧ s.action = action ∧ (∀ b ∈ s.bound, b.arity = call.arity) ∧
      s.bound.map (·.predicate) = (lastCondition call es).map (·.predicate) ∧
      (s.isFatal = true ↔ action = .kill ∧ lastCondition call es = none) ∧
      s.TakesEdits ∧ s.CountsArguments := by
  intro s
  have hfollows : Follows call action es s := by
    simpa using (Follows.start call action).after es
  have huniform : ∀ b ∈ s.bound, b.IsUniform := by
    intro b hb
    have hpredicate := hfollows.predicate_eq
    rw [Option.mem_def.mp hb, Option.map_some, eq_comm, Option.map_eq_some_iff] at hpredicate
    obtain ⟨c, hc, hsame⟩ := hpredicate
    have hc_uniform : c.predicate.IsUniform := isUniform_of_lastCondition hes hc
    rw [Bound.IsUniform, ← hsame]
    exact hc_uniform
  refine ⟨hfollows.call_eq, hfollows.action_eq, ?_, hfollows.predicate_eq, hfollows.isFatal_iff,
    s.takesEdits, countsArguments huniform⟩
  rw [← hfollows.call_eq]
  exact s.arity_bound

/-- Two conditions of which the second takes too many arguments, and types of which only the last
are as many as the call has. What is left is the first condition at the last types, until no
condition is given at all, which makes the statement fatal. -/
theorem after_edits_failing :
    let call : Descriptor := ⟨"fd_close", [.typed "fd" .u32]⟩
    let one : HostFunction := ⟨some "one", some [.positional], fun _ ↦ ⟨[], .ok true⟩⟩
    let two : HostFunction := ⟨some "two", some [.positional, .positional],
      fun _ ↦ ⟨[], .ok true⟩⟩
    let es : List Edit := [.types [], .bound (.operand (.function one)),
      .bound (.operand (.function two)), .types [.text "u8"], .types [.text "u128"]]
    let s := (unconditional call .kill).after es
    s.bound.map (·.predicate) = some (.function one 1) ∧ s.isFatal = false ∧
      (s.triggers [.int 257]).events = [.called one [.int 1]] ∧
      s.triggers [] = ⟨[], .error (.arityMismatch (some "fd_close") 1 0)⟩ ∧
      ((unconditional call .kill).after (es ++ [.bound .absent])).isFatal = true := by
  intro call one two es s
  have hes : ∀ e ∈ es, e.IsUniform := by
    intro e he b hb
    subst hb
    simp [es] at he
  have hes' : ∀ e ∈ es ++ [.bound .absent], e.IsUniform := by
    intro e he b hb
    subst hb
    simp [es] at he
  obtain ⟨hcall, -, -, hpredicate, hfatal, -, hcounts⟩ :=
    after_edits call .kill hes
  refine ⟨hpredicate, ?_, rfl, ?_, ?_⟩
  · rw [Bool.eq_false_iff, Ne, hfatal]
    rintro ⟨-, hnone⟩
    cases hnone
  · have hshort : ([] : List Value).length ≠ s.call.arity := by
      rw [hcall]
      decide
    have hrefused := hcounts.refuses [] hshort
    rwa [hcall] at hrefused
  · exact (after_edits call .kill hes').2.2.2.2.1.mpr ⟨rfl, rfl⟩

end Statement

end CallGate.Policy
