import CallGate.Proofs.Policy.Totality

/-!
# What bounds mean

A bound is a predicate with types, and a term for one can nest predicates and types to any depth.
What it means can be said without either. A term means a pair of things: the types at which
arguments are read on the way in, and what is then done with the integers that have been read.
Everything that is put together from parts hands its arguments to each part and goes through the
answers in a row, up to the first that settles the matter; this is `Run.upTo`.

`BoundTerm.meaning` goes along a term, and the integers are reduced on the way from the outside to
the inside, so a leaf sees what is left of them after all types around it. Types that are declared
anew are not put around those of the bound, they replace them. `holds_eq_meaning` says that a bound
that was built does just that, call for call. In the proof a bound is compared with its meaning by
`Bound.Means`, and there is a lemma for each way to put bounds together.

What a list does to its items is a parameter of the meaning. It evaluates them in a generator, and
this is what bounds are proved to do; but for anyone who puts a bound together a list is a plain
conjunction, `meaning id`. The two are compared at the end, and they part only where an iteration is
ended in an item of a list.
-/

namespace CallGate.Policy

open CallGate.Abi CallGate.Data

/-! ## Integers at types -/

/-- Reduce each integer to the range of the type in its place, and leave it where there is none. -/
def ParamTypes.reduce (types : ParamTypes) (args : List ℤ) : List ℤ :=
  types.zipWith (fun type n ↦ type.elim n (·.reduce n)) args

theorem readAs_int (type : Option ArgType) (n : ℤ) :
    readAs type (.int n) = .ok (.int (type.elim n (·.reduce n))) := by
  cases type <;> rfl

theorem ParamTypes.read_int (types : ParamTypes) (args : List ℤ) :
    types.read (args.map .int) = .ok ((types.reduce args).map .int) := by
  induction types generalizing args with
  | nil => rfl
  | cons type types ih =>
    cases args with
    | nil => rfl
    | cons n args =>
      have hrest := ih args
      rw [read] at hrest ⊢
      rw [List.map_cons, List.zip_cons_cons, List.mapM_cons, hrest]
      simp only [readAs_int]
      rfl

theorem ParamTypes.length_reduce {types : ParamTypes} {args : List ℤ}
    (h : types.length = args.length) : (types.reduce args).length = args.length := by
  rw [reduce, List.length_zipWith, h, Nat.min_self]

/-! ## Predicates -/

/-- What a host function does on some integers. Anything else cannot be called. -/
def Operand.meaning : Operand → List ℤ → Run Bool
  | function f, args => f.call (args.map .int)
  | value v, _ => Run.ofExcept (.error (.notCallable v))

namespace PredicateTerm

mutual

/-- What a term for a predicate does on some integers, where a list does `item` to each of its
items. -/
def meaning (item : Run Bool → Run Bool) : PredicateTerm → List ℤ → Run Bool
  | leaf x _, args => x.meaning args
  | and left right, args => Run.conj [left.meaning item args, right.meaning item args]
  | or left right, args => Run.disj [left.meaning item args, right.meaning item args]
  | allOf parts _, args => Run.conj ((meanings item parts).map fun m ↦ item (m args))

def meanings (item : Run Bool → Run Bool) : List PredicateTerm → List (List ℤ → Run Bool)
  | [] => []
  | t :: ts => t.meaning item :: meanings item ts

end

end PredicateTerm

namespace Predicate

/-- A predicate that is given as many integers as it takes does what is said. -/
def Means (p : Predicate) (meaning : List ℤ → Run Bool) : Prop :=
  ∀ args : List ℤ, p.arity = args.length → p.holds (args.map .int) = meaning args

variable {left right p : Predicate} {m m' : List ℤ → Run Bool}

theorem holds_of_and (h : left.and right = .ok p) :
    p.arity = left.arity ∧ p.arity = right.arity ∧
      ∀ args, p.holds args = Run.conj [left.holds args, right.holds args] := by
  simp only [Predicate.and, bind_eq_ok, pure_eq_ok, expectArity_eq_ok, exists_const] at h
  obtain ⟨harity, rfl⟩ := h
  exact ⟨rfl, harity, fun args ↦ by rw [holds, Run.conj_cons, Run.conj, Run.upTo_singleton]⟩

theorem holds_of_or (h : left.or right = .ok p) :
    p.arity = left.arity ∧ p.arity = right.arity ∧
      ∀ args, p.holds args = Run.disj [left.holds args, right.holds args] := by
  simp only [Predicate.or, bind_eq_ok, pure_eq_ok, expectArity_eq_ok, exists_const] at h
  obtain ⟨harity, rfl⟩ := h
  exact ⟨rfl, harity, fun args ↦ by rw [holds, Run.disj_cons, Run.disj, Run.upTo_singleton]⟩

theorem allHold_eq (args : List Value) (parts : List Predicate) :
    allHold args parts = Run.conj (parts.map fun p ↦ (p.holds args).inGenerator) := by
  induction parts with
  | nil => rfl
  | cons p ps ih =>
    rw [allHold, ih, List.map_cons, Run.conj_cons]

theorem holds_of_allOf {parts : List Predicate} {arity : Option ℤ} (h : allOf parts arity = .ok p) :
    (∀ q ∈ parts, p.arity = q.arity) ∧
      ∀ args, p.holds args = Run.conj (parts.map fun q ↦ (q.holds args).inGenerator) := by
  unfold allOf at h
  split at h
  · next n _ =>
    rw [bind_eq_ok] at h
    obtain ⟨_, hchecked, h⟩ := h
    cases pure_eq_ok.mp h
    exact ⟨fun q hq ↦ expectArity_eq_ok.mp (forM_eq_ok.mp hchecked q hq),
      fun args ↦ by rw [holds, allHold_eq]⟩
  · cases h

theorem Means.and (hleft : left.Means m) (hright : right.Means m') (h : left.and right = .ok p) :
    p.Means fun args ↦ Run.conj [m args, m' args] := by
  obtain ⟨hl, hr, hholds⟩ := holds_of_and h
  intro args hargs
  rw [hholds, hleft args (hl ▸ hargs), hright args (hr ▸ hargs)]

theorem Means.or (hleft : left.Means m) (hright : right.Means m') (h : left.or right = .ok p) :
    p.Means fun args ↦ Run.disj [m args, m' args] := by
  obtain ⟨hl, hr, hholds⟩ := holds_of_or h
  intro args hargs
  rw [hholds, hleft args (hl ▸ hargs), hright args (hr ▸ hargs)]

theorem Means.allOf {parts : List Predicate} {ms : List (List ℤ → Run Bool)} {arity : Option ℤ}
    (hparts : List.Forall₂ Means parts ms) (h : Predicate.allOf parts arity = .ok p) :
    p.Means fun args ↦ Run.conj (ms.map fun m ↦ (m args).inGenerator) := by
  obtain ⟨harity, hholds⟩ := holds_of_allOf h
  intro args hargs
  have hmap : parts.map (fun q ↦ (q.holds (args.map .int)).inGenerator) =
      ms.map fun m ↦ (m args).inGenerator := by
    clear h hholds
    induction hparts with
    | nil => rfl
    | cons hq hparts ih =>
      obtain ⟨hfirst, hrest⟩ := List.forall_mem_cons.mp harity
      rw [List.map_cons, List.map_cons, hq args (hfirst ▸ hargs), ih hrest]
  rw [hholds, hmap]

end Predicate

theorem Operand.means_of_predicate {x : Operand} {arity : Option ℤ} {p : Predicate}
    (h : x.predicate arity = .ok p) : p.Means x.meaning := by
  cases x with
  | value v => cases h
  | function f =>
    intro args _
    cases arity with
    | some n =>
      cases h
      rw [Predicate.holds, meaning]
    | none =>
      cases hf : f.arity with
      | error e =>
        rw [predicate, hf] at h
        cases h
      | ok n =>
        rw [predicate, hf] at h
        cases h
        rw [Predicate.holds, meaning]

namespace PredicateTerm

mutual

/-- A predicate does what the term says that it was put together by. -/
theorem means_of_build (t : PredicateTerm) {p : Predicate} (h : t.build = .ok p) :
    p.Means (t.meaning Run.inGenerator) := by
  cases t with
  | leaf x arity => exact Operand.means_of_predicate h
  | and left right =>
    simp only [build, bind_eq_ok] at h
    obtain ⟨l, hl, r, hr, h⟩ := h
    exact (means_of_build left hl).and (means_of_build right hr) h
  | or left right =>
    simp only [build, bind_eq_ok] at h
    obtain ⟨l, hl, r, hr, h⟩ := h
    exact (means_of_build left hl).or (means_of_build right hr) h
  | allOf parts arity =>
    simp only [build, bind_eq_ok] at h
    obtain ⟨ps, hps, h⟩ := h
    exact Predicate.Means.allOf (means_of_buildAll parts hps) h

theorem means_of_buildAll (ts : List PredicateTerm) {ps : List Predicate}
    (h : buildAll ts = .ok ps) :
    List.Forall₂ Predicate.Means ps (meanings Run.inGenerator ts) := by
  cases ts with
  | nil =>
    cases h
    exact .nil
  | cons t ts =>
    simp only [buildAll, bind_eq_ok, pure_eq_ok] at h
    obtain ⟨p, hp, ps, hps, rfl⟩ := h
    exact .cons (means_of_build t hp) (means_of_buildAll ts hps)

end

end PredicateTerm

/-! ## Bounds -/

/-- What a bound means: the types at which it reads its arguments, and what is then done with
them. -/
structure Meaning where
  types : Option ParamTypes
  body : List ℤ → Run Bool

namespace Meaning

/-- What is done with integers that are still to be read. -/
def on (m : Meaning) (args : List ℤ) : Run Bool := m.body (m.types.elim args (·.reduce args))

/-- Parts in a row, each of which reads the arguments for itself. One part alone is just that
part. -/
def row (stop : Bool) : List Meaning → Meaning
  | [m] => m
  | ms => ⟨none, fun args ↦ Run.upTo stop (ms.map (·.on args))⟩

theorem row_row_cons (stop : Bool) (m m' : Meaning) (ms : List Meaning) :
    row stop (row stop [m, m'] :: ms) = row stop (m :: m' :: ms) := by
  cases ms with
  | nil => rfl
  | cons m'' ms =>
    simp only [row, List.map_cons]
    congr 1
    funext args
    exact Run.upTo_upTo_cons stop [m.on args, m'.on args] _

end Meaning

/-- The types that are declared by some names. -/
def typesOf (names : Option (List Value)) : Option ParamTypes :=
  names.map (·.map ArgType.ofValue?)

def ItemTerm.meaning (item : Run Bool → Run Bool) : ItemTerm → List ℤ → Run Bool
  | operand x => x.meaning
  | predicate t => t.meaning item

namespace BoundTerm

mutual

/-- What a term for a bound means, where a list does `item` to each of its items. Other types are
other types for the same body: they take the place of those that were declared. -/
def meaning (item : Run Bool → Run Bool) : BoundTerm → Meaning
  | predicate t names => ⟨typesOf names, t.meaning item⟩
  | predicates items names =>
    ⟨typesOf names, fun args ↦ Run.conj ((items.map (·.meaning item)).map fun m ↦ item (m args))⟩
  | and left right => .row false [left.meaning item, right.meaning item]
  | or left right => .row true [left.meaning item, right.meaning item]
  | allOf parts => .row false (meanings item parts)
  | anyOf parts => .row true (meanings item parts)
  | withTypes inner names => { inner.meaning item with types := typesOf names }

def meanings (item : Run Bool → Run Bool) : List BoundTerm → List Meaning
  | [] => []
  | t :: ts => t.meaning item :: meanings item ts

end

end BoundTerm

namespace Bound

/-- A bound reads its arguments at the types that are said, and does what is said with them. -/
def Means (b : Bound) (m : Meaning) : Prop := b.types = m.types ∧ b.predicate.Means m.body

variable {b c d : Bound} {m m' : Meaning}

theorem Means.toPredicate (h : b.Means m) : b.toPredicate.Means m.on := by
  obtain ⟨htypes, hbody⟩ := h
  obtain ⟨p, types, hlength⟩ := b
  intro args hargs
  rw [Meaning.on, ← htypes]
  cases types with
  | none => exact hbody args hargs
  | some types =>
    have harity : expectArity none p.arity (args.map Value.int).length = .ok () := by
      rw [expectArity_eq_ok, List.length_map]
      exact hargs
    have hsame : (types.reduce args).length = args.length := by
      refine ParamTypes.length_reduce ?_
      have htypes : (types.length : ℤ) = p.arity := hlength types rfl
      exact Int.ofNat_inj.mp (htypes.trans hargs)
    have hread := types.read_int args
    rw [Bound.toPredicate, Predicate.holds, harity, hread]
    exact hbody _ (hargs.trans (by rw [hsame]))

theorem Means.holds (h : b.Means m) {args : List ℤ} (hargs : b.arity = args.length) :
    b.holds (args.map .int) = m.on args := by
  rw [holds_eq_holds_toPredicate (by rw [hargs, List.length_map])]
  exact h.toPredicate args (b.arity_toPredicate.trans hargs)

theorem typeOfValue_eq_ok {v : Value} {type : Option ArgType} (h : typeOfValue v = .ok type) :
    ArgType.ofValue? v = type := by
  unfold typeOfValue at h
  split at h
  · cases h
    rfl
  · cases hv : ArgType.ofValue? v with
    | none => simp [hv] at h
    | some t =>
      simp only [hv] at h
      cases h
      rfl

theorem Means.ofPredicate {p : Predicate} {names : Option (List Value)}
    {body : List ℤ → Run Bool} (hp : p.Means body) (h : Bound.ofPredicate p names = .ok b) :
    b.Means ⟨typesOf names, body⟩ := by
  refine ⟨?_, (predicate_of_ofPredicate h).symm ▸ hp⟩
  cases names with
  | none =>
    cases h
    rfl
  | some names =>
    rw [Bound.ofPredicate, bind_eq_ok] at h
    obtain ⟨types, htypes, h⟩ := h
    have hnames : names.map ArgType.ofValue? = types := by
      have hall := (mapM_eq_ok.mp htypes).imp fun _ _ ↦ typeOfValue_eq_ok
      rwa [← List.forall₂_map_left_iff, List.forall₂_eq_eq_eq] at hall
    rw [typesOf, Option.map_some, hnames]
    split at h
    · cases h
      rfl
    · cases h

theorem Means.and (hb : b.Means m) (hc : c.Means m') (h : b.and c = .ok d) :
    d.Means (.row false [m, m']) := by
  rw [Bound.and, bind_eq_ok] at h
  obtain ⟨p, hp, h⟩ := h
  exact Means.ofPredicate (hb.toPredicate.and hc.toPredicate hp) h

theorem Means.or (hb : b.Means m) (hc : c.Means m') (h : b.or c = .ok d) :
    d.Means (.row true [m, m']) := by
  rw [Bound.or, bind_eq_ok] at h
  obtain ⟨p, hp, h⟩ := h
  exact Means.ofPredicate (hb.toPredicate.or hc.toPredicate hp) h

/-- Bounds that are combined from the left mean what they mean in a row. -/
theorem Means.foldlM {op : Bound → Bound → Except PolicyError Bound} {stop : Bool}
    (hop : ∀ {b c d m m'}, b.Means m → c.Means m' → op b c = .ok d → d.Means (.row stop [m, m']))
    {bs : List Bound} {ms : List Meaning} (hb : b.Means m) (hbs : List.Forall₂ Means bs ms)
    (h : bs.foldlM op b = .ok d) : d.Means (.row stop (m :: ms)) := by
  induction hbs generalizing b m with
  | nil =>
    cases h
    exact hb
  | cons hc hbs ih =>
    rw [List.foldlM_cons, bind_eq_ok] at h
    obtain ⟨d, hd, h⟩ := h
    rw [← Meaning.row_row_cons]
    exact ih (hop hb hc hd) h

theorem Means.allOf {bs : List Bound} {ms : List Meaning} (hbs : List.Forall₂ Means bs ms)
    (h : Bound.allOf bs = .ok d) : d.Means (.row false ms) := by
  cases hbs with
  | nil => cases h
  | cons hb hbs => exact Means.foldlM Means.and hb hbs h

theorem Means.anyOf {bs : List Bound} {ms : List Meaning} (hbs : List.Forall₂ Means bs ms)
    (h : Bound.anyOf bs = .ok d) : d.Means (.row true ms) := by
  cases hbs with
  | nil => cases h
  | cons hb hbs => exact Means.foldlM Means.or hb hbs h

end Bound

theorem ItemTerm.means_of_build {i : ItemTerm} {x : PredicateLike} {p : Predicate}
    (hx : i.build = .ok x) (hp : x.toPredicate = .ok p) : p.Means (i.meaning Run.inGenerator) := by
  cases i with
  | operand o =>
    cases hx
    have ho : o.predicate none = .ok p := hp
    exact Operand.means_of_predicate ho
  | predicate t =>
    cases ht : t.build with
    | error e =>
      rw [build, ht] at hx
      cases hx
    | ok q =>
      rw [build, ht] at hx
      cases hx
      cases hp
      exact t.means_of_build ht

/-- All items are put together before any operand among them is made a predicate. -/
theorem ItemTerm.means_of_mapM {items : List ItemTerm} {xs : List PredicateLike}
    {ps : List Predicate} (hxs : items.mapM ItemTerm.build = .ok xs)
    (hps : xs.mapM PredicateLike.toPredicate = .ok ps) :
    List.Forall₂ Predicate.Means ps (items.map (·.meaning Run.inGenerator)) := by
  rw [mapM_eq_ok] at hxs hps
  induction hxs generalizing ps with
  | nil =>
    cases hps
    exact .nil
  | cons hx _ ih =>
    cases hps with
    | cons hp hps => exact .cons (means_of_build hx hp) (ih hps)

namespace BoundTerm

mutual

/-- A bound means what the term does that it was put together by. -/
theorem means_of_build (t : BoundTerm) {b : Bound} (h : t.build = .ok b) :
    b.Means (t.meaning Run.inGenerator) := by
  cases t with
  | predicate t names =>
    simp only [build, bind_eq_ok] at h
    obtain ⟨p, hp, h⟩ := h
    exact Bound.Means.ofPredicate (t.means_of_build hp) h
  | predicates items names =>
    simp only [build, bind_eq_ok] at h
    obtain ⟨xs, hxs, ps, hps, p, hp, h⟩ := h
    exact Bound.Means.ofPredicate (Predicate.Means.allOf (ItemTerm.means_of_mapM hxs hps) hp) h
  | and left right =>
    simp only [build, bind_eq_ok] at h
    obtain ⟨l, hl, r, hr, h⟩ := h
    exact (means_of_build left hl).and (means_of_build right hr) h
  | or left right =>
    simp only [build, bind_eq_ok] at h
    obtain ⟨l, hl, r, hr, h⟩ := h
    exact (means_of_build left hl).or (means_of_build right hr) h
  | allOf parts =>
    simp only [build, bind_eq_ok] at h
    obtain ⟨bs, hbs, h⟩ := h
    exact Bound.Means.allOf (means_of_buildAll parts hbs) h
  | anyOf parts =>
    simp only [build, bind_eq_ok] at h
    obtain ⟨bs, hbs, h⟩ := h
    exact Bound.Means.anyOf (means_of_buildAll parts hbs) h
  | withTypes inner names =>
    simp only [build, bind_eq_ok] at h
    obtain ⟨c, hc, h⟩ := h
    exact Bound.Means.ofPredicate (means_of_build inner hc).2 h

theorem means_of_buildAll (ts : List BoundTerm) {bs : List Bound} (h : buildAll ts = .ok bs) :
    List.Forall₂ Bound.Means bs (meanings Run.inGenerator ts) := by
  cases ts with
  | nil =>
    cases h
    exact .nil
  | cons t ts =>
    simp only [buildAll, bind_eq_ok, pure_eq_ok] at h
    obtain ⟨b, hb, bs, hbs, rfl⟩ := h
    exact .cons (means_of_build t hb) (means_of_buildAll ts hbs)

end

end BoundTerm

/-! ## Items of lists

A list that evaluates its items and nothing else is `meaning id`. What is put in a generator for a
list comes out of the whole as it would come out of the generator, or as it went in. -/

namespace PredicateTerm

mutual

theorem isBehind_meaning (t : PredicateTerm) (args : List ℤ) :
    (t.meaning Run.inGenerator args).IsBehind (t.meaning id args) := by
  cases t with
  | leaf x arity =>
    rw [meaning, meaning]
    exact .inl rfl
  | and left right =>
    rw [meaning, meaning]
    exact .upTo (.cons (isBehind_meaning left args) (.cons (isBehind_meaning right args) .nil))
  | or left right =>
    rw [meaning, meaning]
    exact .upTo (.cons (isBehind_meaning left args) (.cons (isBehind_meaning right args) .nil))
  | allOf parts arity =>
    rw [meaning, meaning]
    exact .upTo (isBehind_meanings parts args)

theorem isBehind_meanings (ts : List PredicateTerm) (args : List ℤ) :
    List.Forall₂ Run.IsBehind
      ((meanings Run.inGenerator ts).map fun m ↦ (m args).inGenerator)
      ((meanings id ts).map fun m ↦ id (m args)) := by
  cases ts with
  | nil => exact .nil
  | cons t ts =>
    rw [meanings, meanings, List.map_cons, List.map_cons]
    exact .cons (isBehind_meaning t args).inGenerator (isBehind_meanings ts args)

end

end PredicateTerm

theorem ItemTerm.isBehind_meaning (i : ItemTerm) (args : List ℤ) :
    (i.meaning Run.inGenerator args).IsBehind (i.meaning id args) := by
  cases i with
  | operand x => exact .inl rfl
  | predicate t => exact t.isBehind_meaning args

namespace Meaning

/-- Meanings that read their arguments at the same types, and of which one body is behind the
other. -/
structure IsBehind (m m' : Meaning) : Prop where
  types_eq : m.types = m'.types
  body : ∀ args, (m.body args).IsBehind (m'.body args)

namespace IsBehind

variable {m m' : Meaning} {ms ms' : List Meaning}

theorem on (h : m.IsBehind m') (args : List ℤ) : (m.on args).IsBehind (m'.on args) := by
  rw [Meaning.on, Meaning.on, h.types_eq]
  exact h.body _

theorem row (h : List.Forall₂ IsBehind ms ms') (stop : Bool) :
    (row stop ms).IsBehind (row stop ms') := by
  have hplaces (args : List ℤ) :
      List.Forall₂ Run.IsBehind (ms.map (·.on args)) (ms'.map (·.on args)) := by
    rw [List.forall₂_map_left_iff, List.forall₂_map_right_iff]
    exact h.imp fun _ _ hm ↦ hm.on args
  cases h with
  | nil => exact ⟨rfl, fun _ ↦ .inl rfl⟩
  | cons hm hms =>
    -- One part alone stays what it is, types included.
    cases hms with
    | nil => exact hm
    | cons _ _ => exact ⟨rfl, fun args ↦ .upTo (hplaces args)⟩

end IsBehind

end Meaning

namespace BoundTerm

mutual

theorem isBehind_meaning (t : BoundTerm) :
    (t.meaning Run.inGenerator).IsBehind (t.meaning id) := by
  cases t with
  | predicate t names => exact ⟨rfl, t.isBehind_meaning⟩
  | predicates items names =>
    refine ⟨rfl, fun args ↦ .upTo ?_⟩
    rw [List.map_map, List.map_map, List.forall₂_map_left_iff, List.forall₂_map_right_iff,
      List.forall₂_same]
    exact fun i _ ↦ (i.isBehind_meaning args).inGenerator
  | and left right =>
    exact .row (.cons (isBehind_meaning left) (.cons (isBehind_meaning right) .nil)) false
  | or left right =>
    exact .row (.cons (isBehind_meaning left) (.cons (isBehind_meaning right) .nil)) true
  | allOf parts => exact .row (isBehind_meanings parts) false
  | anyOf parts => exact .row (isBehind_meanings parts) true
  | withTypes inner names => exact ⟨rfl, (isBehind_meaning inner).body⟩

theorem isBehind_meanings (ts : List BoundTerm) :
    List.Forall₂ Meaning.IsBehind (meanings Run.inGenerator ts) (meanings id ts) := by
  cases ts with
  | nil => exact .nil
  | cons t ts => exact .cons (isBehind_meaning t) (isBehind_meanings ts)

end

end BoundTerm

/-! ## What is evaluated is what is meant -/

namespace Bound

variable {b c d : Bound} {args : List Value}

theorem holds_of_and (h : b.and c = .ok d) (hargs : d.arity = args.length) :
    d.holds args = Run.conj [b.holds args, c.holds args] := by
  rw [Bound.and, bind_eq_ok] at h
  obtain ⟨p, hp, h⟩ := h
  cases h
  obtain ⟨hleft, hright, hholds⟩ := Predicate.holds_of_and hp
  rw [arity_toPredicate] at hleft hright
  rw [holds_eq_holds_toPredicate hargs, holds_eq_holds_toPredicate (hleft ▸ hargs),
    holds_eq_holds_toPredicate (hright ▸ hargs)]
  exact hholds args

theorem holds_of_or (h : b.or c = .ok d) (hargs : d.arity = args.length) :
    d.holds args = Run.disj [b.holds args, c.holds args] := by
  rw [Bound.or, bind_eq_ok] at h
  obtain ⟨p, hp, h⟩ := h
  cases h
  obtain ⟨hleft, hright, hholds⟩ := Predicate.holds_of_or hp
  rw [arity_toPredicate] at hleft hright
  rw [holds_eq_holds_toPredicate hargs, holds_eq_holds_toPredicate (hleft ▸ hargs),
    holds_eq_holds_toPredicate (hright ▸ hargs)]
  exact hholds args

end Bound

/-- **Bounds mean what their terms say.** A bound that was put together by a term, and that is given
as many integers as it takes, does what the term means: it makes the same calls in the same order
and with the same integers, and it ends in the same way. One thing is left open, what a list makes
of an item that fails by ending an iteration; it follows the item, which is to say that the failure
stays one and nothing else changes. So the whole follows the plain meaning of the term, in which a
list evaluates its items as they are. And where two bounds are put together, each does what it does
on its own, so that neither reads its arguments at the types of the other. -/
theorem BoundTerm.holds_eq_meaning :
    (∃ item : Run Bool → Run Bool, (∀ r, (item r).Follows r) ∧
      ∀ (t : BoundTerm) (b : Bound), t.build = .ok b → ∀ args : List ℤ, b.arity = args.length →
        b.holds (args.map .int) = (t.meaning item).on args ∧
        (b.holds (args.map .int)).Follows ((t.meaning id).on args)) ∧
    ∀ (b c d : Bound) (args : List Value), d.arity = args.length →
      (b.and c = .ok d → d.holds args = Run.conj [b.holds args, c.holds args]) ∧
      (b.or c = .ok d → d.holds args = Run.disj [b.holds args, c.holds args]) := by
  refine ⟨⟨Run.inGenerator, Run.follows_inGenerator, fun t b h args hargs ↦ ?_⟩,
    fun _ _ _ _ hargs ↦ ⟨fun h ↦ Bound.holds_of_and h hargs, fun h ↦ Bound.holds_of_or h hargs⟩⟩
  have hholds := (t.means_of_build h).holds hargs
  refine ⟨hholds, ?_⟩
  rw [hholds]
  exact (t.isBehind_meaning.on args).follows

/-- One argument read at four places: in a list at a type of its own, at a type inside another,
inside that type alone, and not at all after a conjunction has failed. -/
theorem BoundTerm.holds_eq_meaning_nested :
    let yes : HostFunction :=
      { name := some "yes", params := some [.positional], respond := fun _ ↦ ⟨[], .ok true⟩ }
    let no : HostFunction :=
      { name := some "no", params := some [.positional], respond := fun _ ↦ ⟨[], .ok false⟩ }
    let t : BoundTerm := .allOf [.predicates [.operand (.function yes)] (some [.text "u8"]),
      .withTypes (.or (.predicate (.leaf (.function no) none) (some [.text "i8"]))
        (.predicate (.leaf (.function no) none) (some [.null]))) (some [.text "u16"]),
      .predicate (.leaf (.function yes) none) none]
    ∃ b, t.build = .ok b ∧ b.holds [.int (-1)] =
      ⟨[.called yes [.int 255], .called no [.int (-1)], .called no [.int 65535]], .ok false⟩ := by
  intro yes no t
  obtain ⟨b, hb, harity⟩ : ∃ b, t.build = .ok b ∧ b.arity = 1 := ⟨_, rfl, rfl⟩
  obtain ⟨_, -, hmeans⟩ := BoundTerm.holds_eq_meaning.1
  refine ⟨b, hb, (hmeans t b hb [-1] harity).2.eq_of_not_endsIteration ?_⟩
  rintro ⟨fault, hfault, -⟩
  cases hfault

/-- Two ways in which a bound is not what its term looks like. Types that are declared anew do not
enclose the ones before but take their place: minus one is read as a half word, where a half word
that is then read as a byte would be minus one again. And a list of predicates is a conjunction
except for the end of an iteration, which does not get out of it as what it was. -/
theorem BoundTerm.redeclared_types_and_ended_iteration :
    let wide : HostFunction := ⟨some "wide", some [.positional], fun
      | [.int n] => ⟨[], .ok (n == 65535)⟩
      | _ => ⟨[], .ok false⟩⟩
    let next : HostFunction := ⟨some "next", some [.positional], fun _ ↦
      ⟨[], .error (.raised ⟨.stopIteration, ""⟩)⟩⟩
    let redeclared : BoundTerm := .withTypes
      (.predicate (.leaf (.function wide) none) (some [.text "i8"])) (some [.text "u16"])
    let list : BoundTerm := .predicates [.operand (.function next)] none
    (∃ b, redeclared.build = .ok b ∧
      b.holds [.int (-1)] = ⟨[.called wide [.int 65535]], .ok true⟩ ∧
      ParamTypes.reduce [some .i8] (ParamTypes.reduce [some .u16] [-1]) = [-1] ∧
      wide.call [.int (-1)] = ⟨[.called wide [.int (-1)]], .ok false⟩) ∧
    ∃ b, list.build = .ok b ∧
      b.holds [.int 9] = ⟨[.called next [.int 9]],
        .error (.host (.raised ⟨.runtimeError, "generator raised StopIteration"⟩))⟩ ∧
      (list.meaning id).on [9] = ⟨[.called next [.int 9]],
        .error (.host (.raised ⟨.stopIteration, ""⟩))⟩ := by
  intro wide next redeclared list
  exact ⟨⟨_, rfl, rfl, by decide, rfl⟩, _, rfl, rfl, rfl⟩

end CallGate.Policy
