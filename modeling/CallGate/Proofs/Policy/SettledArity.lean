import CallGate.Proofs.Policy.Retyping

/-!
# Numbers of arguments are settled when things are put together

A bound looks at the number of its arguments once, before anything else is done. After that nothing
but a typed predicate does so again, and a list of types that is too short would just drop
arguments. That this is safe is decided earlier. Whatever is put together compares the numbers of
arguments of its parts (`ComparesArity`), and what comes of it is the same number everywhere.

`Predicate.Takes` says this along a predicate. Here it is read off at every depth: `IsPart` is a
part of a part, down to the leaves, and `IsSettled` says of all of them, and of all types between
them, that they go with one number of arguments. An evaluation with this number then calls each leaf
with as many (`Takes.called`), and does not find the number wrong (`Takes.passedOn`).
-/

namespace CallGate.Policy

open CallGate.Abi CallGate.Data

/-! ## Parts -/

namespace Predicate

/-- A predicate occurs in another one, at some depth. -/
inductive IsPart (q : Predicate) : Predicate → Prop
  | self : IsPart q q
  | left_both {left right : Predicate} (h : IsPart q left) : IsPart q (.both left right)
  | right_both {left right : Predicate} (h : IsPart q right) : IsPart q (.both left right)
  | left_either {left right : Predicate} (h : IsPart q left) : IsPart q (.either left right)
  | right_either {left right : Predicate} (h : IsPart q right) : IsPart q (.either left right)
  | item {parts : List Predicate} {p : Predicate} {n : ℤ} (hp : p ∈ parts) (h : IsPart q p) :
      IsPart q (.all parts n)
  | inner {inner : Predicate} {types : ParamTypes} (h : IsPart q inner) :
      IsPart q (.typed inner types)

/-- All parts of a predicate take `n` arguments, and all types that are declared in it are for `n`
arguments and leave as many. -/
structure IsSettled (p : Predicate) (n : ℤ) : Prop where
  arity_eq : ∀ q : Predicate, q.IsPart p → q.arity = n
  length_types : ∀ inner types, (typed inner types).IsPart p → (types.length : ℤ) = n
  length_read : ∀ inner types, (typed inner types).IsPart p → ∀ args vs : List Value,
    (args.length : ℤ) = n → types.read args = .ok vs → (vs.length : ℤ) = n

variable {p q : Predicate} {n : ℤ}

theorem Takes.of_isPart (hp : p.Takes n) (hq : q.IsPart p) : q.Takes n := by
  induction hq with
  | self => exact hp
  | left_both _ ih =>
    cases hp with
    | both hleft _ => exact ih hleft
  | right_both _ ih =>
    cases hp with
    | both _ hright => exact ih hright
  | left_either _ ih =>
    cases hp with
    | either hleft _ => exact ih hleft
  | right_either _ ih =>
    cases hp with
    | either _ hright => exact ih hright
  | item hmem _ ih =>
    cases hp with
    | all hparts => exact ih (hparts _ hmem)
  | inner _ ih =>
    cases hp with
    | typed hinner _ => exact ih hinner

theorem Takes.isSettled (hp : p.Takes n) : p.IsSettled n := by
  have htypes (inner : Predicate) (types : ParamTypes)
      (hpart : (Predicate.typed inner types).IsPart p) :
      (types.length : ℤ) = n := by
    cases hp.of_isPart hpart with
    | typed _ hlength => exact hlength
  refine ⟨fun q hq ↦ (hp.of_isPart hq).arity_eq, htypes, fun inner types hpart args vs ↦ ?_⟩
  intro hargs hread
  have hlength : types.length = args.length := by
    exact_mod_cast (htypes inner types hpart).trans hargs.symm
  rw [ParamTypes.length_of_read hlength hread, hargs]

end Predicate

/-! ## Calls -/

namespace Run

variable {α β : Type}

theorem mem_events_bind {r : Run α} {f : α → Run β} {e : Event} :
    e ∈ (r >>= f).events ↔ e ∈ r.events ∨ ∃ a, r.outcome = .ok a ∧ e ∈ (f a).events := by
  cases h : r.outcome with
  | error fault => simp [bind_of_error h]
  | ok a => simp [bind_of_ok h]

end Run

theorem HostFunction.eq_of_called_mem_call {f g : HostFunction} {args vs : List Value}
    (h : .called g vs ∈ (f.call args).events) : g = f ∧ vs = args := by
  rw [call] at h
  simpa using h

namespace Predicate

/-- An evaluation with `n` arguments calls leaves of a predicate, each with `n` arguments, and does
not come to find a number of arguments wrong. -/
structure IsFitRun (p : Predicate) (n : ℤ) (r : Run Bool) : Prop where
  called : ∀ f vs, .called f vs ∈ r.events → (function f n).IsPart p ∧ (vs.length : ℤ) = n
  ne_arityMismatch : ∀ call expected actual,
    r.outcome ≠ .error (.arityMismatch call expected actual)

variable {p : Predicate} {n : ℤ} {args : List Value}

theorem exists_of_mem_events_allHold {parts : List Predicate} {e : Event}
    (h : e ∈ (allHold args parts).events) : ∃ p ∈ parts, e ∈ (p.holds args).events := by
  induction parts with
  | nil =>
    rw [allHold] at h
    exact absurd h List.not_mem_nil
  | cons p ps ih =>
    rw [allHold, Run.mem_events_bind] at h
    rcases h with hp | ⟨v, -, h⟩
    · exact ⟨p, List.mem_cons_self, hp⟩
    · cases v with
      | false => exact absurd h List.not_mem_nil
      | true =>
        obtain ⟨q, hq, he⟩ := ih h
        exact ⟨q, List.mem_cons_of_mem p hq, he⟩

/-- **Leaves are called with all arguments.** Where the parts of a predicate take `n` arguments and
it is given as many, so is each of its leaves that is called. -/
theorem Takes.called (hp : p.Takes n) (hargs : (args.length : ℤ) = n) {f : HostFunction}
    {vs : List Value} (h : .called f vs ∈ (p.holds args).events) :
    (Predicate.function f n).IsPart p ∧ (vs.length : ℤ) = n := by
  -- As for failures, the arguments are other ones behind a typed predicate.
  induction hp generalizing args with
  | function g =>
    rw [holds] at h
    obtain ⟨rfl, rfl⟩ := HostFunction.eq_of_called_mem_call h
    exact ⟨.self, hargs⟩
  | both _ _ ihleft ihright =>
    rw [holds, Run.mem_events_bind] at h
    rcases h with h | ⟨v, -, h⟩
    · exact (ihleft hargs h).imp_left .left_both
    · cases v with
      | false => exact absurd h List.not_mem_nil
      | true => exact (ihright hargs h).imp_left .right_both
  | either _ _ ihleft ihright =>
    rw [holds, Run.mem_events_bind] at h
    rcases h with h | ⟨v, -, h⟩
    · exact (ihleft hargs h).imp_left .left_either
    · cases v with
      | false => exact (ihright hargs h).imp_left .right_either
      | true => exact absurd h List.not_mem_nil
  | all _ ih =>
    rw [holds] at h
    obtain ⟨q, hq, h⟩ := exists_of_mem_events_allHold h
    exact (ih q hq hargs h).imp_left (.item hq)
  | @typed _ types _ hlength ih =>
    have hsame : types.length = args.length := by omega
    rw [holds, Run.mem_events_bind] at h
    rcases h with h | ⟨_, -, h⟩
    · exact absurd h List.not_mem_nil
    · rw [Run.mem_events_bind] at h
      rcases h with h | ⟨ws, hread, h⟩
      · exact absurd h List.not_mem_nil
      · have hws : (ws.length : ℤ) = n := by
          rw [ParamTypes.length_of_read hsame hread]
          exact hargs
        exact (ih hws h).imp_left .inner

theorem Takes.isFitRun (hp : p.Takes n) (hargs : (args.length : ℤ) = n) :
    p.IsFitRun n (p.holds args) := by
  refine ⟨fun f vs ↦ hp.called hargs, fun call expected actual he ↦ ?_⟩
  cases hp.passedOn hargs he

end Predicate

/-! ## Comparisons -/

/-- Something is put together by comparing numbers of arguments with `n`. It is refused for the
first one that differs, and for no other reason. -/
structure ComparesArity {α : Type} (n : ℤ) (others : List ℤ) (x : Except PolicyError α) : Prop where
  accepts : (∀ m ∈ others, m = n) → ∃ a, x = .ok a
  refuses : ∀ m ∈ others.find? (· ≠ n), x = .error (.arityMismatch none n m)

namespace ComparesArity

variable {α : Type} {n m : ℤ} {ms : List ℤ} {x : Except PolicyError α}

theorem nil {a : α} (h : x = .ok a) : ComparesArity n [] x :=
  ⟨fun _ ↦ ⟨a, h⟩, fun m hm ↦ by cases hm⟩

theorem cons (hother : n ≠ m → x = .error (.arityMismatch none n m))
    (hsame : n = m → ComparesArity n ms x) : ComparesArity n (m :: ms) x := by
  by_cases h : n = m
  · obtain ⟨haccepts, hrefuses⟩ := hsame h
    constructor
    · exact fun hall ↦ haccepts (List.forall_mem_cons.mp hall).2
    · rwa [List.find?_cons_of_neg (by simp [h])]
  · constructor
    · exact fun hall ↦ absurd (List.forall_mem_cons.mp hall).1.symm h
    · rw [List.find?_cons_of_pos (by simpa using Ne.symm h)]
      rintro _ ⟨⟩
      exact hother h

/-- A comparison may come first, and more of them behind it. -/
theorem of_expectArity {f : Unit → Except PolicyError α} (h : n = m → ComparesArity n ms (f ())) :
    ComparesArity n (m :: ms) (expectArity none n m >>= f) := by
  refine .cons (fun hne ↦ ?_) fun heq ↦ ?_
  · rw [expectArity, if_neg hne]
    rfl
  · rw [expectArity, if_pos heq]
    exact h heq

end ComparesArity

namespace Predicate

theorem comparesArity_and (left right : Predicate) :
    ComparesArity left.arity [right.arity] (left.and right) :=
  .of_expectArity fun _ ↦ .nil rfl

theorem comparesArity_or (left right : Predicate) :
    ComparesArity left.arity [right.arity] (left.or right) :=
  .of_expectArity fun _ ↦ .nil rfl

theorem comparesArity_forM (n : ℤ) (parts : List Predicate) :
    ComparesArity n (parts.map arity) (parts.forM fun p ↦ expectArity none n p.arity) := by
  induction parts with
  | nil => exact .nil rfl
  | cons p ps ih =>
    have hforM : (p :: ps).forM (fun p ↦ expectArity none n p.arity) =
        expectArity none n p.arity >>= fun _ ↦ ps.forM fun p ↦ expectArity none n p.arity := rfl
    rw [List.map_cons, hforM]
    exact .of_expectArity fun _ ↦ ih

theorem comparesArity_allOf {parts : List Predicate} {arity : Option ℤ} {n : ℤ}
    (hn : (arity <|> parts.head?.map Predicate.arity) = some n) :
    ComparesArity n (parts.map Predicate.arity) (allOf parts arity) := by
  obtain ⟨haccepts, hrefuses⟩ := comparesArity_forM n parts
  have hallOf : allOf parts arity =
      (parts.forM fun p ↦ expectArity none n p.arity) >>= fun _ ↦ pure (all parts n) := by
    rw [allOf]
    simp only [hn]
  rw [hallOf]
  constructor
  · intro hall
    obtain ⟨u, hu⟩ := haccepts hall
    exact ⟨all parts n, by rw [hu]; rfl⟩
  · intro m hm
    rw [hrefuses m hm]
    rfl

end Predicate

namespace Bound

theorem IsRowOf.comparesArity {stop : Bool} {op : Bound → Bound → Except PolicyError Bound}
    (hop : IsRowOf stop op) (b : Bound) (bs : List Bound) :
    ComparesArity b.arity (bs.map arity) (bs.foldlM op b) := by
  induction bs generalizing b with
  | nil => exact .nil rfl
  | cons c cs ih =>
    refine .cons (fun hne ↦ ?_) fun heq ↦ ?_
    · rw [List.foldlM_cons, hop.refuses hne]
      rfl
    · -- What has been combined so far takes as many arguments as the first bound.
      obtain ⟨d, hd⟩ := hop.accepts heq
      rw [List.foldlM_cons, hd, (hop.arity_eq hd).1]
      exact ih d

theorem IsRowOf.comparesArity_pair {stop : Bool} {op : Bound → Bound → Except PolicyError Bound}
    (hop : IsRowOf stop op) (b c : Bound) : ComparesArity b.arity [c.arity] (op b c) := by
  simpa only [List.map_singleton, List.foldlM_cons, List.foldlM_nil, bind_pure] using
    hop.comparesArity b [c]

theorem comparesArity_ofPredicate (p : Predicate) {names : List Value} {types : ParamTypes}
    (hnames : names.mapM typeOfValue = .ok types) :
    ComparesArity p.arity [(types.length : ℤ)] (ofPredicate p (some names)) := by
  refine .cons (fun hne ↦ ofPredicate_of_length_ne hnames hne.symm) fun heq ↦ ?_
  obtain ⟨b, hb, -, -⟩ := exists_ofPredicate hnames heq.symm
  exact .nil hb

end Bound

/-- **Numbers of arguments are settled.** All parts of a predicate or bound that is put together by
a term go with one number of arguments. With as many, it calls each leaf with as many and does not
find the number wrong; a bound that is given another number says so and calls nothing. Where things
are put together, or types declared, that go with different numbers, this is refused at once. -/
theorem arity_settled :
    (∀ (t : PredicateTerm) (p : Predicate), t.build = .ok p → p.IsSettled p.arity ∧
      ∀ args : List Value, p.arity = args.length → p.IsFitRun p.arity (p.holds args)) ∧
    (∀ (t : BoundTerm) (b : Bound), t.build = .ok b → b.toPredicate.IsSettled b.arity ∧
      (∀ args : List Value, b.arity = args.length →
        b.toPredicate.IsFitRun b.arity (b.holds args)) ∧
      ∀ args : List Value, b.arity ≠ args.length →
        b.holds args = ⟨[], .error (.arityMismatch none b.arity args.length)⟩) ∧
    (∀ p q : Predicate, ComparesArity p.arity [q.arity] (p.and q) ∧
      ComparesArity p.arity [q.arity] (p.or q)) ∧
    (∀ (ps : List Predicate) (arity : Option ℤ) (n : ℤ),
      (arity <|> ps.head?.map Predicate.arity) = some n →
        ComparesArity n (ps.map Predicate.arity) (Predicate.allOf ps arity)) ∧
    (∀ b c : Bound, ComparesArity b.arity [c.arity] (b.and c) ∧
      ComparesArity b.arity [c.arity] (b.or c)) ∧
    (∀ (b : Bound) (bs : List Bound),
      ComparesArity b.arity (bs.map Bound.arity) (Bound.allOf (b :: bs)) ∧
        ComparesArity b.arity (bs.map Bound.arity) (Bound.anyOf (b :: bs))) ∧
    ∀ (names : List Value) (types : ParamTypes), names.mapM Bound.typeOfValue = .ok types →
      (∀ p : Predicate,
        ComparesArity p.arity [(types.length : ℤ)] (Bound.ofPredicate p (some names))) ∧
      ∀ b : Bound, ComparesArity b.arity [(types.length : ℤ)] (b.withTypes (some names)) := by
  refine ⟨fun t p ht ↦ ?_, fun t b ht ↦ ?_,
    fun p q ↦ ⟨p.comparesArity_and q, p.comparesArity_or q⟩,
    fun ps arity n ↦ Predicate.comparesArity_allOf,
    fun b c ↦ ⟨Bound.isRowOf_and.comparesArity_pair b c, Bound.isRowOf_or.comparesArity_pair b c⟩,
    fun b bs ↦ ⟨Bound.isRowOf_and.comparesArity b bs, Bound.isRowOf_or.comparesArity b bs⟩,
    fun names types hnames ↦ ⟨fun p ↦ Bound.comparesArity_ofPredicate p hnames,
      fun b ↦ Bound.comparesArity_ofPredicate b.predicate hnames⟩⟩
  · have htakes : p.Takes p.arity := t.isUniform_of_build ht
    exact ⟨htakes.isSettled, fun args hargs ↦ htakes.isFitRun hargs.symm⟩
  · have htakes : b.toPredicate.Takes b.arity :=
      b.arity_toPredicate ▸ (t.isUniform_of_build ht).toPredicate
    refine ⟨htakes.isSettled, fun args hargs ↦ ?_, fun args ↦ Bound.holds_of_arity_ne⟩
    rw [Bound.holds_eq_holds_toPredicate hargs]
    exact htakes.isFitRun hargs.symm

/-- A bound with types around a bound with types and a list of predicates: the leaf gets two
arguments both times, one argument is refused, and so is another part that takes one. -/
theorem arity_settled_nested :
    let f : HostFunction := ⟨some "f", some [.positional, .positional], fun _ ↦ ⟨[], .ok true⟩⟩
    let single : Bound := { predicate := .function f 1 }
    let byte : BoundTerm :=
      .predicate (.leaf (.function f) none) (some [.text "u8", .null])
    let list : BoundTerm :=
      .predicates [.operand (.function f), .predicate (.allOf [] (some 2))] none
    ∃ b, (BoundTerm.withTypes (.and byte list) (some [.null, .text "i16"])).build = .ok b ∧
      b.holds [.int (-1), .int 65535] =
        ⟨[.called f [.int 255, .int (-1)], .called f [.int (-1), .int (-1)]], .ok true⟩ ∧
      b.toPredicate.IsSettled 2 ∧
      b.toPredicate.IsFitRun 2 (b.holds [.int (-1), .int 65535]) ∧
      b.holds [.int (-1)] = ⟨[], .error (.arityMismatch none 2 1)⟩ ∧
      b.or single = .error (.arityMismatch none 2 1) := by
  intro f single byte list
  obtain ⟨b, hb, harity, hevents⟩ : ∃ b,
      (BoundTerm.withTypes (.and byte list) (some [.null, .text "i16"])).build = .ok b ∧
      b.arity = 2 ∧ b.holds [.int (-1), .int 65535] =
        ⟨[.called f [.int 255, .int (-1)], .called f [.int (-1), .int (-1)]], .ok true⟩ :=
    ⟨_, rfl, rfl, rfl⟩
  obtain ⟨-, hbuilt, -, -, hcompares, -⟩ := arity_settled
  obtain ⟨hsettled, hfit, hrefuses⟩ := hbuilt _ b hb
  have hsingle := (hcompares b single).2.refuses 1
  rw [harity] at hsettled hfit hrefuses hsingle
  exact ⟨b, hb, hevents, hsettled, hfit _ rfl, hrefuses [.int (-1)] (by decide), hsingle rfl⟩

end CallGate.Policy
