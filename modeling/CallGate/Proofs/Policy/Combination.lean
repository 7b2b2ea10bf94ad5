import CallGate.Proofs.Policy.Meaning

/-!
# Bounds and their parts

Bounds are combined two at a time or as a list, and a combination can be a part of the next one.
`Bound.CombinedFrom` keeps book of this: it says which bounds a bound was made from, in order, and
does not look into these any further. So a part may be anything, a function at some types just as
well as a bound that is itself a combination with new types.

What a combination does is settled by what its parts do, since each of them gets the arguments as
they are: `CombinedFrom.holds_congr`. It is stated for two lists of arguments, because that is what
it is for. Whatever cannot be told apart by any part cannot be told apart by the whole, and
statements about all combinations come down to statements about their parts.

A combination of at least two parts declares no types of its own (`CombinedFrom.types_eq_none`).
-/

namespace CallGate.Policy

open CallGate.Abi CallGate.Data

namespace Bound

variable {b c d : Bound} {args args' : List Value}

/-! ## Two bounds -/

theorem holds_of_arity_ne (h : b.arity ≠ args.length) :
    b.holds args = ⟨[], .error (.arityMismatch none b.arity args.length)⟩ := by
  rw [holds, read, expectArity, if_neg h]
  rfl

/-- A way to combine two bounds, of which each does what it does on its own until the answer is
`stop`. It is there for bounds that take the same number of arguments. -/
structure IsRowOf (stop : Bool) (op : Bound → Bound → Except PolicyError Bound) : Prop where
  accepts : ∀ {b c : Bound}, b.arity = c.arity → ∃ d, op b c = .ok d
  refuses : ∀ {b c : Bound}, b.arity ≠ c.arity →
    op b c = .error (.arityMismatch none b.arity c.arity)
  arity_eq : ∀ {b c d : Bound}, op b c = .ok d → b.arity = d.arity ∧ c.arity = d.arity
  types_eq_none : ∀ {b c d : Bound}, op b c = .ok d → d.types = none
  holds_eq : ∀ {b c d : Bound} {args : List Value}, op b c = .ok d → d.arity = args.length →
    d.holds args = Run.upTo stop [b.holds args, c.holds args]

/-- Two bounds are combined by comparing their numbers of arguments and joining their predicates.
What is left to be shown of a way to do so is that the result is evaluated in a row. -/
theorem isRowOf_of_eq {stop : Bool} {op : Bound → Bound → Except PolicyError Bound}
    (join : Predicate → Predicate → Predicate)
    (hop : ∀ b c, op b c = expectArity none b.arity c.arity >>= fun _ ↦
      pure { predicate := join b.toPredicate c.toPredicate })
    (hjoin : ∀ p q, (join p q).arity = p.arity)
    (hholds : ∀ {b c d : Bound} {args : List Value}, op b c = .ok d → d.arity = args.length →
      d.holds args = Run.upTo stop [b.holds args, c.holds args]) : IsRowOf stop op where
  accepts {b c} h := by
    rw [hop, expectArity, if_pos h]
    exact ⟨_, rfl⟩
  refuses {b c} h := by
    rw [hop, expectArity, if_neg h]
    rfl
  arity_eq {b c d} h := by
    rw [hop, bind_eq_ok] at h
    obtain ⟨_, hsame, h⟩ := h
    cases h
    have harity : (join b.toPredicate c.toPredicate).arity = b.arity := by
      rw [hjoin, arity_toPredicate]
    exact ⟨harity.symm, (expectArity_eq_ok.mp hsame).symm.trans harity.symm⟩
  types_eq_none {b c d} h := by
    rw [hop, bind_eq_ok] at h
    obtain ⟨_, -, h⟩ := h
    cases h
    rfl
  holds_eq := hholds

theorem isRowOf_and : IsRowOf false Bound.and := by
  refine isRowOf_of_eq .both (fun b c ↦ ?_) (fun _ _ ↦ rfl) holds_of_and
  rw [Bound.and, Predicate.and, arity_toPredicate, arity_toPredicate, bind_assoc]
  rfl

theorem isRowOf_or : IsRowOf true Bound.or := by
  refine isRowOf_of_eq .either (fun b c ↦ ?_) (fun _ _ ↦ rfl) holds_of_or
  rw [Bound.or, Predicate.or, arity_toPredicate, arity_toPredicate, bind_assoc]
  rfl

/-! ## Lists of bounds -/

namespace IsRowOf

variable {stop : Bool} {op : Bound → Bound → Except PolicyError Bound} {bs : List Bound}

theorem arity_of_foldlM (hop : IsRowOf stop op) (h : bs.foldlM op b = .ok d) :
    b.arity = d.arity := by
  induction bs generalizing b with
  | nil =>
    rw [List.foldlM_nil, pure_eq_ok] at h
    rw [h]
  | cons c cs ih =>
    rw [List.foldlM_cons, bind_eq_ok] at h
    obtain ⟨e, he, h⟩ := h
    exact (hop.arity_eq he).1.trans (ih h)

theorem holds_of_foldlM (hop : IsRowOf stop op) (h : bs.foldlM op b = .ok d)
    (hargs : d.arity = args.length) :
    d.holds args = Run.upTo stop ((b :: bs).map (·.holds args)) := by
  induction bs generalizing b with
  | nil =>
    rw [List.foldlM_nil, pure_eq_ok] at h
    rw [h, List.map_singleton, Run.upTo_singleton]
  | cons c cs ih =>
    rw [List.foldlM_cons, bind_eq_ok] at h
    obtain ⟨e, he, h⟩ := h
    have hrow := hop.holds_eq he ((hop.arity_of_foldlM h).trans hargs)
    rw [ih h, List.map_cons, hrow, Run.upTo_upTo_cons]
    rfl

theorem types_of_foldlM (hop : IsRowOf stop op) (h : bs.foldlM op b = .ok d) (hbs : bs ≠ []) :
    d.types = none := by
  obtain ⟨c, cs, rfl⟩ := List.exists_cons_of_ne_nil hbs
  rw [List.foldlM_cons, bind_eq_ok] at h
  obtain ⟨e, he, h⟩ := h
  exact of_foldlM_eq_ok (P := fun b : Bound ↦ b.types = none)
    (fun _ _ _ _ _ hstep ↦ hop.types_eq_none hstep) (hop.types_eq_none he) h

end IsRowOf

theorem holds_of_allOf {bs : List Bound} (h : allOf bs = .ok d) (hargs : d.arity = args.length) :
    d.holds args = Run.conj (bs.map (·.holds args)) := by
  cases bs with
  | nil => cases h
  | cons b bs => exact isRowOf_and.holds_of_foldlM h hargs

theorem holds_of_anyOf {bs : List Bound} (h : anyOf bs = .ok d) (hargs : d.arity = args.length) :
    d.holds args = Run.disj (bs.map (·.holds args)) := by
  cases bs with
  | nil => cases h
  | cons b bs => exact isRowOf_or.holds_of_foldlM h hargs

/-! ## Combinations -/

/-- A bound is made from some parts, from left to right. In a list of bounds each comes with the
parts that it is made from. -/
inductive CombinedFrom : List Bound → Bound → Prop
  | part (b : Bound) : CombinedFrom [b] b
  | and {ps qs : List Bound} {b c d : Bound} (hb : CombinedFrom ps b) (hc : CombinedFrom qs c)
      (h : b.and c = .ok d) : CombinedFrom (ps ++ qs) d
  | or {ps qs : List Bound} {b c d : Bound} (hb : CombinedFrom ps b) (hc : CombinedFrom qs c)
      (h : b.or c = .ok d) : CombinedFrom (ps ++ qs) d
  | allOf {groups : List (List Bound × Bound)} {d : Bound}
      (hgroups : ∀ e ∈ groups, CombinedFrom e.1 e.2)
      (h : Bound.allOf (groups.map (·.2)) = .ok d) : CombinedFrom (groups.flatMap (·.1)) d
  | anyOf {groups : List (List Bound × Bound)} {d : Bound}
      (hgroups : ∀ e ∈ groups, CombinedFrom e.1 e.2)
      (h : Bound.anyOf (groups.map (·.2)) = .ok d) : CombinedFrom (groups.flatMap (·.1)) d

/-- A row does the same where each of its bounds does. With another number of arguments than it
takes, it refuses both times. -/
theorem holds_congr_of_row {stop : Bool} {bs : List Bound}
    (hrow : ∀ args : List Value, d.arity = args.length →
      d.holds args = Run.upTo stop (bs.map (·.holds args)))
    (hlength : args.length = args'.length) (hbs : ∀ b ∈ bs, b.holds args = b.holds args') :
    d.holds args = d.holds args' := by
  by_cases harity : d.arity = args.length
  · rw [hrow args harity, hrow args' (harity.trans (by rw [hlength])), List.map_congr_left hbs]
  · have harity' : d.arity ≠ args'.length := hlength ▸ harity
    rw [holds_of_arity_ne harity, holds_of_arity_ne harity', hlength]

namespace CombinedFrom

variable {parts : List Bound}

/-- **A combination does what its parts do.** -/
theorem holds_congr (hb : b.CombinedFrom parts) (hlength : args.length = args'.length)
    (hparts : ∀ p ∈ parts, p.holds args = p.holds args') : b.holds args = b.holds args' := by
  induction hb with
  | part b => exact hparts b (List.mem_singleton_self b)
  | @and ps qs b c d _ _ h ihb ihc =>
    obtain ⟨hps, hqs⟩ := List.forall_mem_append.mp hparts
    have hrow : ∀ args : List Value, d.arity = args.length →
        d.holds args = Run.upTo false ([b, c].map (·.holds args)) := fun _ ↦ holds_of_and h
    refine holds_congr_of_row hrow hlength ?_
    exact List.forall_mem_cons.mpr ⟨ihb hps, List.forall_mem_singleton.mpr (ihc hqs)⟩
  | @or ps qs b c d _ _ h ihb ihc =>
    obtain ⟨hps, hqs⟩ := List.forall_mem_append.mp hparts
    have hrow : ∀ args : List Value, d.arity = args.length →
        d.holds args = Run.upTo true ([b, c].map (·.holds args)) := fun _ ↦ holds_of_or h
    refine holds_congr_of_row hrow hlength ?_
    exact List.forall_mem_cons.mpr ⟨ihb hps, List.forall_mem_singleton.mpr (ihc hqs)⟩
  | allOf _ h ih =>
    refine holds_congr_of_row (fun _ ↦ holds_of_allOf h) hlength (List.forall_mem_map.mpr ?_)
    exact fun e he ↦ ih e he fun p hp ↦ hparts p (List.mem_flatMap_of_mem he hp)
  | anyOf _ h ih =>
    refine holds_congr_of_row (fun _ ↦ holds_of_anyOf h) hlength (List.forall_mem_map.mpr ?_)
    exact fun e he ↦ ih e he fun p hp ↦ hparts p (List.mem_flatMap_of_mem he hp)

/-- A list of one bound is that bound, and any other way to combine leaves the types to the
parts. -/
theorem types_eq_none (hb : b.CombinedFrom parts) (h2 : 2 ≤ parts.length) : b.types = none := by
  induction hb with
  | part b => simp at h2
  | and _ _ h => exact isRowOf_and.types_eq_none h
  | or _ _ h => exact isRowOf_or.types_eq_none h
  | @allOf groups d _ h ih =>
    match groups with
    | [] => cases h
    | [e] =>
      cases h
      exact ih e (List.mem_singleton_self e) (by simpa using h2)
    | e :: e' :: groups => exact isRowOf_and.types_of_foldlM h (List.cons_ne_nil _ _)
  | @anyOf groups d _ h ih =>
    match groups with
    | [] => cases h
    | [e] =>
      cases h
      exact ih e (List.mem_singleton_self e) (by simpa using h2)
    | e :: e' :: groups => exact isRowOf_or.types_of_foldlM h (List.cons_ne_nil _ _)

end CombinedFrom

end Bound

end CallGate.Policy
