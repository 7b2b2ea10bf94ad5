import CallGate.Policy.Term
import CallGate.Proofs.Policy.Evaluation

/-!
# Predicates whose parts agree

Numbers of arguments are compared while predicates are put together, and hardly ever again. What the
comparisons are for is `Predicate.Takes`: every part of a predicate takes the same number of
arguments, and where there are types there is one for each of them. A predicate of this form can be
given arguments without looking at their number any further.

Nothing else can be made. `Bound.IsBuilt` is a bound that comes from a condition as a host hands it
over, whether it is a function, a bound or a term for one, and `Bound.IsBuilt.isUniform` says that
its parts agree. The proof goes along the terms, and each way to combine has a lemma of its own. The
numbers that are taken on trust are those of the leaves: nothing is known of a host function but how
many arguments it is said to take.
-/

namespace CallGate.Policy

open CallGate.Abi CallGate.Data

/-! ## Predicates -/

namespace Predicate

/-- All parts of a predicate take `n` arguments. -/
inductive Takes (n : ℤ) : Predicate → Prop
  | function (f : HostFunction) : Takes n (.function f n)
  | both {left right : Predicate} (hleft : Takes n left) (hright : Takes n right) :
      Takes n (.both left right)
  | either {left right : Predicate} (hleft : Takes n left) (hright : Takes n right) :
      Takes n (.either left right)
  | all {parts : List Predicate} (hparts : ∀ p ∈ parts, Takes n p) : Takes n (.all parts n)
  | typed {inner : Predicate} {types : ParamTypes} (hinner : Takes n inner)
      (hlength : (types.length : ℤ) = n) : Takes n (.typed inner types)

theorem Takes.arity_eq {n : ℤ} {p : Predicate} (h : p.Takes n) : p.arity = n := by
  induction h with
  | function f => rfl
  | both _ _ ihleft _ => exact ihleft
  | either _ _ ihleft _ => exact ihleft
  | all _ _ => rfl
  | typed _ _ ihinner => exact ihinner

/-- The parts of a predicate all take as many arguments as the whole. -/
def IsUniform (p : Predicate) : Prop := p.Takes p.arity

theorem isUniform_of_and {left right p : Predicate} (hleft : left.IsUniform)
    (hright : right.IsUniform) (h : left.and right = .ok p) : p.IsUniform := by
  simp only [Predicate.and, bind_eq_ok, pure_eq_ok, expectArity_eq_ok, exists_const] at h
  obtain ⟨harity, rfl⟩ := h
  rw [IsUniform, ← harity] at hright
  exact .both hleft hright

theorem isUniform_of_or {left right p : Predicate} (hleft : left.IsUniform)
    (hright : right.IsUniform) (h : left.or right = .ok p) : p.IsUniform := by
  simp only [Predicate.or, bind_eq_ok, pure_eq_ok, expectArity_eq_ok, exists_const] at h
  obtain ⟨harity, rfl⟩ := h
  rw [IsUniform, ← harity] at hright
  exact .either hleft hright

theorem isUniform_of_allOf {parts : List Predicate} {arity : Option ℤ} {p : Predicate}
    (hparts : ∀ q ∈ parts, q.IsUniform) (h : allOf parts arity = .ok p) : p.IsUniform := by
  unfold allOf at h
  split at h
  · next n _ =>
    rw [bind_eq_ok] at h
    obtain ⟨_, hchecked, h⟩ := h
    rw [pure_eq_ok] at h
    subst h
    refine .all fun q hq ↦ ?_
    have hn : n = q.arity := expectArity_eq_ok.mp (forM_eq_ok.mp hchecked q hq)
    rw [hn]
    exact hparts q hq
  · cases h

end Predicate

theorem Operand.isUniform_of_predicate {x : Operand} {arity : Option ℤ} {p : Predicate}
    (h : x.predicate arity = .ok p) : p.IsUniform := by
  cases x with
  | value v => cases h
  | function f =>
    cases arity with
    | some n =>
      cases h
      exact .function f
    | none =>
      cases hf : f.arity with
      | error e =>
        rw [predicate, hf] at h
        cases h
      | ok n =>
        rw [predicate, hf] at h
        cases h
        exact .function f

namespace PredicateTerm

mutual

/-- The parts of a predicate that is put together by a term agree. -/
theorem isUniform_of_build (t : PredicateTerm) {p : Predicate} (h : t.build = .ok p) :
    p.IsUniform := by
  cases t with
  | leaf x arity => exact Operand.isUniform_of_predicate h
  | and left right =>
    simp only [build, bind_eq_ok] at h
    obtain ⟨l, hl, r, hr, h⟩ := h
    exact Predicate.isUniform_of_and (isUniform_of_build left hl) (isUniform_of_build right hr) h
  | or left right =>
    simp only [build, bind_eq_ok] at h
    obtain ⟨l, hl, r, hr, h⟩ := h
    exact Predicate.isUniform_of_or (isUniform_of_build left hl) (isUniform_of_build right hr) h
  | allOf parts arity =>
    simp only [build, bind_eq_ok] at h
    obtain ⟨ps, hps, h⟩ := h
    exact Predicate.isUniform_of_allOf (isUniform_of_buildAll parts hps) h

theorem isUniform_of_buildAll (ts : List PredicateTerm) {ps : List Predicate}
    (h : buildAll ts = .ok ps) : ∀ p ∈ ps, p.IsUniform := by
  cases ts with
  | nil =>
    cases h
    exact List.forall_mem_nil _
  | cons t ts =>
    simp only [buildAll, bind_eq_ok, pure_eq_ok] at h
    obtain ⟨p, hp, ps, hps, rfl⟩ := h
    exact List.forall_mem_cons.mpr ⟨isUniform_of_build t hp, isUniform_of_buildAll ts hps⟩

end

end PredicateTerm

/-! ## Bounds -/

namespace Bound

/-- The parts of a bound all take as many arguments as the bound. -/
def IsUniform (b : Bound) : Prop := b.predicate.IsUniform

theorem predicate_of_ofPredicate {p : Predicate} {names : Option (List Value)} {b : Bound}
    (h : ofPredicate p names = .ok b) : b.predicate = p := by
  cases names with
  | none =>
    cases h
    rfl
  | some names =>
    rw [ofPredicate, bind_eq_ok] at h
    obtain ⟨types, -, h⟩ := h
    split at h
    · cases h
      rfl
    · cases h

theorem isUniform_of_ofPredicate {p : Predicate} {names : Option (List Value)} {b : Bound}
    (hp : p.IsUniform) (h : ofPredicate p names = .ok b) : b.IsUniform := by
  rw [IsUniform, predicate_of_ofPredicate h]
  exact hp

theorem arity_toPredicate (b : Bound) : b.toPredicate.arity = b.arity := by
  rw [toPredicate]
  cases b.types with
  | none => rfl
  | some types => rfl

theorem IsUniform.toPredicate {b : Bound} (hb : b.IsUniform) : b.toPredicate.IsUniform := by
  obtain ⟨predicate, types, hlength⟩ := b
  cases types with
  | none => exact hb
  | some types => exact .typed hb (hlength types rfl)

theorem isUniform_of_and {left right b : Bound} (hleft : left.IsUniform) (hright : right.IsUniform)
    (h : left.and right = .ok b) : b.IsUniform := by
  rw [Bound.and, bind_eq_ok] at h
  obtain ⟨p, hp, h⟩ := h
  have huniform := Predicate.isUniform_of_and hleft.toPredicate hright.toPredicate hp
  exact isUniform_of_ofPredicate huniform h

theorem isUniform_of_or {left right b : Bound} (hleft : left.IsUniform) (hright : right.IsUniform)
    (h : left.or right = .ok b) : b.IsUniform := by
  rw [Bound.or, bind_eq_ok] at h
  obtain ⟨p, hp, h⟩ := h
  have huniform := Predicate.isUniform_of_or hleft.toPredicate hright.toPredicate hp
  exact isUniform_of_ofPredicate huniform h

theorem isUniform_of_allOf {bs : List Bound} {b : Bound} (hbs : ∀ c ∈ bs, c.IsUniform)
    (h : allOf bs = .ok b) : b.IsUniform := by
  cases bs with
  | nil => cases h
  | cons c cs =>
    obtain ⟨hc, hcs⟩ := List.forall_mem_cons.mp hbs
    exact of_foldlM_eq_ok (fun d hd _ _ hb h ↦ isUniform_of_and hb (hcs d hd) h) hc h

theorem isUniform_of_anyOf {bs : List Bound} {b : Bound} (hbs : ∀ c ∈ bs, c.IsUniform)
    (h : anyOf bs = .ok b) : b.IsUniform := by
  cases bs with
  | nil => cases h
  | cons c cs =>
    obtain ⟨hc, hcs⟩ := List.forall_mem_cons.mp hbs
    exact of_foldlM_eq_ok (fun d hd _ _ hb h ↦ isUniform_of_or hb (hcs d hd) h) hc h

end Bound

theorem ItemTerm.isUniform_of_build {i : ItemTerm} {x : PredicateLike} {p : Predicate}
    (hx : i.build = .ok x) (hp : x.toPredicate = .ok p) : p.IsUniform := by
  cases i with
  | operand o =>
    cases hx
    have ho : o.predicate none = .ok p := hp
    exact Operand.isUniform_of_predicate ho
  | predicate t =>
    cases ht : t.build with
    | error e =>
      rw [build, ht] at hx
      cases hx
    | ok q =>
      rw [build, ht] at hx
      cases hx
      cases hp
      exact t.isUniform_of_build ht

namespace BoundTerm

mutual

/-- The parts of a bound that is put together by a term agree. -/
theorem isUniform_of_build (t : BoundTerm) {b : Bound} (h : t.build = .ok b) : b.IsUniform := by
  cases t with
  | predicate t types =>
    simp only [build, bind_eq_ok] at h
    obtain ⟨p, hp, h⟩ := h
    exact Bound.isUniform_of_ofPredicate (t.isUniform_of_build hp) h
  | predicates items types =>
    simp only [build, bind_eq_ok] at h
    obtain ⟨xs, hxs, ps, hps, p, hp, h⟩ := h
    have hparts : ∀ q ∈ ps, q.IsUniform := by
      intro q hq
      obtain ⟨x, hx, hxq⟩ := exists_of_mem_mapM hps hq
      obtain ⟨i, -, hi⟩ := exists_of_mem_mapM hxs hx
      exact ItemTerm.isUniform_of_build hi hxq
    exact Bound.isUniform_of_ofPredicate (Predicate.isUniform_of_allOf hparts hp) h
  | and left right =>
    simp only [build, bind_eq_ok] at h
    obtain ⟨l, hl, r, hr, h⟩ := h
    exact Bound.isUniform_of_and (isUniform_of_build left hl) (isUniform_of_build right hr) h
  | or left right =>
    simp only [build, bind_eq_ok] at h
    obtain ⟨l, hl, r, hr, h⟩ := h
    exact Bound.isUniform_of_or (isUniform_of_build left hl) (isUniform_of_build right hr) h
  | allOf parts =>
    simp only [build, bind_eq_ok] at h
    obtain ⟨bs, hbs, h⟩ := h
    exact Bound.isUniform_of_allOf (isUniform_of_buildAll parts hbs) h
  | anyOf parts =>
    simp only [build, bind_eq_ok] at h
    obtain ⟨bs, hbs, h⟩ := h
    exact Bound.isUniform_of_anyOf (isUniform_of_buildAll parts hbs) h
  | withTypes inner types =>
    -- Other types leave the predicate as it is.
    simp only [build, bind_eq_ok] at h
    obtain ⟨c, hc, h⟩ := h
    exact Bound.isUniform_of_ofPredicate (isUniform_of_build inner hc) h

theorem isUniform_of_buildAll (ts : List BoundTerm) {bs : List Bound}
    (h : buildAll ts = .ok bs) : ∀ b ∈ bs, b.IsUniform := by
  cases ts with
  | nil =>
    cases h
    exact List.forall_mem_nil _
  | cons t ts =>
    simp only [buildAll, bind_eq_ok, pure_eq_ok] at h
    obtain ⟨b, hb, bs, hbs, rfl⟩ := h
    exact List.forall_mem_cons.mpr ⟨isUniform_of_build t hb, isUniform_of_buildAll ts hbs⟩

end

end BoundTerm

/-! ## Conditions as they are handed over -/

theorem BoundLike.isUniform_of_operand {x : Operand} {b : Bound}
    (h : (BoundLike.operand x).toBound? = .ok (some b)) : b.IsUniform := by
  unfold toBound? at h
  split at h
  · cases h
  · cases h
  · next hx => cases hx
  · next y _ hx =>
    cases hx
    simp only [bind_eq_ok, pure_eq_ok, Option.some.injEq] at h
    obtain ⟨p, hp, c, hc, rfl⟩ := h
    exact Bound.isUniform_of_ofPredicate (Operand.isUniform_of_predicate hp) hc

/-- A bound that can be made: some condition, put together and handed over, is this bound. -/
def Bound.IsBuilt (b : Bound) : Prop :=
  ∃ (c : ConditionTerm) (x : BoundLike), c.build = .ok x ∧ x.toBound? = .ok (some b)

/-- **Bounds are uniform.** The parts of a bound that can be made agree on the number of their
arguments. -/
theorem Bound.IsBuilt.isUniform {b : Bound} (h : b.IsBuilt) : b.IsUniform := by
  obtain ⟨c, x, hc, hx⟩ := h
  cases c with
  | absent =>
    cases hc
    cases hx
  | operand o =>
    cases hc
    exact BoundLike.isUniform_of_operand hx
  | bound t =>
    cases ht : t.build with
    | error e =>
      rw [ConditionTerm.build, ht] at hc
      cases hc
    | ok b' =>
      rw [ConditionTerm.build, ht] at hc
      cases hc
      cases hx
      exact t.isUniform_of_build ht

end CallGate.Policy
