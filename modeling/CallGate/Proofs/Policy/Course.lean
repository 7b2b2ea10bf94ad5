import CallGate.Proofs.Policy.Evaluation

/-!
# The course of an evaluation

Conditions are put together from parts, and each way to do so goes through the answers of the parts
in a row, up to the first that settles the matter. `Run.upTo` is such a row, with a conjunction and
a disjunction as its two cases. A row inside a row can be taken apart, and what makes no calls can
be done before the row instead of in each place.

## Generators

The row of a list is evaluated in a generator, and other rows are not, so the two can differ in one
thing: a failure that says that an iteration has ended comes out of a generator as another one.
Everything up to the failure is the same. `Run.Follows` says what this leaves to be relied on, the
calls with their values, the marks, the verdict, and the function that raises; and as long as there
is no such failure it is equality.

For a proof it is better to know how a run has come to follow another one. `Run.IsBehind` is kept by
rows, because a generator around a row is a generator around each of its places
(`Run.inGenerator_upTo`), and the second one around a place does nothing.
-/

namespace CallGate.Policy

open CallGate.Data

/-! ## Answers in a row -/

instance : LawfulMonad Run := LawfulMonad.mk' Run
  (by
    rintro α ⟨events, outcome⟩
    cases outcome with
    | error e => rfl
    | ok a => simp [Functor.map, Run.bind])
  (fun a f ↦ by simp [bind, pure, Run.bind])
  (by
    rintro α β γ ⟨events, outcome⟩ f g
    cases outcome with
    | error e => rfl
    | ok a =>
      cases h : (f a).outcome with
      | error e => simp [bind, Run.bind, h]
      | ok b => simp [bind, Run.bind, h])

namespace Run

/-- Evaluate one after the other, up to the first that answers `stop` or fails. If no answer is
`stop`, the whole has the other answer. -/
def upTo (stop : Bool) : List (Run Bool) → Run Bool
  | [] => return !stop
  | r :: rs => do
    if (← r) = stop then return stop else upTo stop rs

/-- All of them have to hold. -/
abbrev conj (rs : List (Run Bool)) : Run Bool := upTo false rs

/-- One of them has to hold. -/
abbrev disj (rs : List (Run Bool)) : Run Bool := upTo true rs

@[simp] theorem upTo_singleton (stop : Bool) (r : Run Bool) : upTo stop [r] = r := by
  rw [upTo]
  have hanswer : (fun answer ↦ if answer = stop then pure stop else upTo stop []) =
      (pure : Bool → Run Bool) := by
    funext answer
    cases answer <;> cases stop <;> rfl
  rw [hanswer, bind_pure]

/-- A row in the first place of a row can be taken apart. -/
theorem upTo_upTo_cons (stop : Bool) (rs ss : List (Run Bool)) :
    upTo stop (upTo stop rs :: ss) = upTo stop (rs ++ ss) := by
  induction rs with
  | nil =>
    rw [upTo, upTo, pure_bind, if_neg (by simp), List.nil_append]
  | cons r rs ih =>
    rw [List.cons_append, upTo, upTo, upTo, bind_assoc]
    congr 1
    funext answer
    by_cases h : answer = stop
    · simp [h]
    · simp only [h, if_false]
      rw [← ih, upTo]

theorem conj_cons (r : Run Bool) (rs : List (Run Bool)) : conj (r :: rs) =
    r >>= fun answer ↦ if answer = true then conj rs else pure false := by
  rw [conj, upTo]
  congr 1
  funext answer
  cases answer <;> rfl

theorem disj_cons (r : Run Bool) (rs : List (Run Bool)) : disj (r :: rs) =
    r >>= fun answer ↦ if answer = true then pure true else disj rs := rfl

theorem upTo_append_congr {stop : Bool} {ss ts : List (Run Bool)} (h : upTo stop ss = upTo stop ts)
    (rs : List (Run Bool)) : upTo stop (rs ++ ss) = upTo stop (rs ++ ts) := by
  rw [← upTo_upTo_cons, ← upTo_upTo_cons, upTo, upTo, h]

/-- A row of rows is a row. -/
theorem upTo_map_upTo (stop : Bool) (rss : List (List (Run Bool))) :
    upTo stop (rss.map (upTo stop)) = upTo stop rss.flatten := by
  induction rss with
  | nil => rfl
  | cons rs rss ih =>
    rw [List.map_cons, upTo_upTo_cons, List.flatten_cons]
    exact upTo_append_congr ih rs

/-- What each of a row does first, and what makes no calls, can be done once before the row. -/
theorem upTo_map_bind (stop : Bool) {α : Type} (x : Except PolicyError α)
    (rs : List (α → Run Bool)) (hrs : rs ≠ []) :
    upTo stop (rs.map fun r ↦ ofExcept x >>= r) =
      ofExcept x >>= fun a ↦ upTo stop (rs.map (· a)) := by
  cases x with
  | ok a => rfl
  | error e =>
    obtain ⟨r, rs, rfl⟩ := List.exists_cons_of_ne_nil hrs
    rfl

end Run

/-! ## Failures in a generator -/

namespace HostFault

variable {fault : HostFault}

theorem outOfGenerator_eq_self (h : fault.exceptionClass.endsIteration = false) :
    fault.outOfGenerator = fault := by
  rw [outOfGenerator, if_neg (by rw [h]; exact Bool.false_ne_true)]

/-- The end of an iteration does not get out of a generator. -/
theorem endsIteration_outOfGenerator (fault : HostFault) :
    fault.outOfGenerator.exceptionClass.endsIteration = false := by
  unfold outOfGenerator
  split
  · rfl
  · next h => exact Bool.eq_false_iff.mpr h

theorem outOfGenerator_outOfGenerator (fault : HostFault) :
    fault.outOfGenerator.outOfGenerator = fault.outOfGenerator :=
  outOfGenerator_eq_self fault.endsIteration_outOfGenerator

end HostFault

namespace Run

variable {α β : Type} {r s : Run α}

/-- An evaluation that fails because a host function says that an iteration has ended. -/
def EndsIteration (r : Run α) : Prop :=
  ∃ fault : HostFault, r.outcome = .error (.host fault) ∧ fault.exceptionClass.endsIteration = true

theorem inGenerator_eq_self (h : ¬ r.EndsIteration) : r.inGenerator = r := by
  obtain ⟨events, outcome⟩ := r
  cases outcome with
  | ok a => rfl
  | error e =>
    cases e with
    | host fault =>
      have hstays : fault.exceptionClass.endsIteration = false :=
        Bool.eq_false_iff.mpr fun hends ↦ h ⟨fault, rfl, hends⟩
      simp only [inGenerator, Except.mapError, PolicyError.outOfGenerator,
        HostFault.outOfGenerator_eq_self hstays]
    | _ => rfl

@[simp] theorem inGenerator_inGenerator (r : Run α) :
    r.inGenerator.inGenerator = r.inGenerator := by
  obtain ⟨events, outcome⟩ := r
  cases outcome with
  | ok a => rfl
  | error e =>
    cases e with
    | host fault =>
      simp only [inGenerator, Except.mapError, PolicyError.outOfGenerator,
        HostFault.outOfGenerator_outOfGenerator]
    | _ => rfl

theorem inGenerator_bind (r : Run α) (f : α → Run β) :
    (r >>= f).inGenerator = r.inGenerator >>= fun a ↦ (f a).inGenerator := by
  obtain ⟨events, outcome⟩ := r
  cases outcome with
  | ok a => rfl
  | error e => rfl

/-- A generator around a row is a generator around each of its places. -/
theorem inGenerator_upTo (stop : Bool) (rs : List (Run Bool)) :
    (upTo stop rs).inGenerator = upTo stop (rs.map inGenerator) := by
  induction rs with
  | nil => rfl
  | cons r rs ih =>
    rw [List.map_cons, upTo, upTo, inGenerator_bind]
    congr 1
    funext answer
    rw [← ih]
    by_cases h : answer = stop
    · rw [if_pos h, if_pos h]
      rfl
    · rw [if_neg h, if_neg h]

end Run

/-! ## Evaluations that take the same course -/

/-- The host function that an event is a call of. -/
def Event.function? : Event → Option HostFunction
  | called function _ => some function
  | marked _ => none

namespace Run

variable {α β : Type} {r s : Run α}

/-- The host function that an evaluation fails with: the last one that was called. -/
def raiser? (r : Run α) : Option HostFunction :=
  match r.outcome with
  | .error (.host _) => (r.events.filterMap Event.function?).getLast?
  | _ => none

/-- An evaluation follows another one. It makes the same calls, with the same values, and leaves the
same marks; it gives a verdict where the other one does, and the same; and it fails with the same
host function. How it fails is the same as well, unless the other one ends an iteration. -/
structure Follows (r s : Run α) : Prop where
  events_eq : r.events = s.events
  outcome_eq_ok_iff : ∀ a, r.outcome = .ok a ↔ s.outcome = .ok a
  raiser?_eq : r.raiser? = s.raiser?
  eq_of_not_endsIteration : ¬ s.EndsIteration → r = s

namespace Follows

theorem refl (r : Run α) : r.Follows r := ⟨rfl, fun _ ↦ Iff.rfl, rfl, fun _ ↦ rfl⟩

/-- An evaluation with a verdict follows none but itself. -/
theorem eq_of_ok (h : r.Follows s) {a : α} (hr : r.outcome = .ok a) : r = s := by
  refine h.eq_of_not_endsIteration ?_
  rintro ⟨fault, hfault, -⟩
  rw [(h.outcome_eq_ok_iff a).mp hr] at hfault
  cases hfault

end Follows

theorem raiser?_inGenerator (r : Run α) : r.inGenerator.raiser? = r.raiser? := by
  obtain ⟨events, outcome⟩ := r
  cases outcome with
  | ok a => rfl
  | error e => cases e <;> rfl

theorem follows_inGenerator (r : Run α) : r.inGenerator.Follows r :=
  ⟨rfl, fun _ ↦ mapError_eq_ok, r.raiser?_inGenerator, inGenerator_eq_self⟩

/-- An evaluation is another one, or that one in a generator. -/
def IsBehind (r s : Run α) : Prop := r = s ∨ r = s.inGenerator

namespace IsBehind

theorem follows (h : r.IsBehind s) : r.Follows s := by
  rcases h with rfl | rfl
  · exact .refl r
  · exact s.follows_inGenerator

theorem inGenerator (h : r.IsBehind s) : r.inGenerator.IsBehind s := by
  rcases h with rfl | rfl
  · exact .inr rfl
  · exact .inr s.inGenerator_inGenerator

theorem bind (h : r.IsBehind s) {f g : α → Run β} (hfg : ∀ a, (f a).IsBehind (g a)) :
    (r >>= f).IsBehind (s >>= g) := by
  obtain ⟨events, outcome⟩ := s
  cases outcome with
  | error e =>
    -- What stands behind a failure is not reached.
    rcases h with rfl | rfl
    · exact .inl rfl
    · exact .inr rfl
  | ok a =>
    have hr : r = ⟨events, .ok a⟩ := h.elim id id
    rw [hr, bind_of_ok rfl, bind_of_ok rfl]
    rcases hfg a with hf | hf
    · exact .inl (by rw [hf])
    · exact .inr (by rw [hf]; rfl)

/-- Rows are behind each other if they are in each place. -/
theorem upTo {stop : Bool} {rs ss : List (Run Bool)} (h : List.Forall₂ IsBehind rs ss) :
    (upTo stop rs).IsBehind (upTo stop ss) := by
  induction h with
  | nil => exact .inl rfl
  | cons hr _ ih =>
    refine hr.bind fun answer ↦ ?_
    by_cases h : answer = stop
    · rw [if_pos h, if_pos h]
      exact .inl rfl
    · rwa [if_neg h, if_neg h]

end IsBehind

end Run

end CallGate.Policy
