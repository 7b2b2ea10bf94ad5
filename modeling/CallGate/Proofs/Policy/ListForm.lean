import CallGate.Proofs.Policy.SettledArity

/-!
# Lists of predicates and folded bounds

That several things have to hold can be said in two ways. A list of predicates is one predicate, and
a bound reads the arguments for all of them at once. Or each predicate is made a bound that reads
the arguments for itself, and the bounds are combined from the left. Here the two come to the same,
and so does every way in between, where some neighbours are put together first.

## What there is to compare

Putting things together can fail, and then the two ways need not find the same fault: a predicate
that does not fit the others is noticed before the types are looked at in one of them, and after in
the other. What they agree on is that numbers of arguments differ. `Settles` records this much of a
way to make something. The numbers it goes with are a predicate on integers, which holds of one
number or of none, and what it does is a function of the arguments. It is kept by each step that
puts something together, and a list is alike to everything that settles on the same
(`Settles.agree`).

## Reading once and reading often

Reading makes no calls, so a part that reads again reads the same, and where the first part cannot
read an argument none of the others is reached. This is `Run.upTo_map_bind`; for the rest, a row of
rows is a row (`Run.upTo_map_upTo`).

## In a generator and outside

A list evaluates its items in a generator and a fold does not, so a failure that ends an iteration
comes out of the two in different ways. All runs are compared as they would be seen from outside of
a generator (`holdsInGenerator`), where the difference is gone. The bound of a list is in one
already, and what it does follows what the others do.
-/

namespace CallGate.Policy

open CallGate.Abi CallGate.Data

/-! ## What a way to put something together settles on -/

section

variable {β γ : Type} {arity : β → ℤ} {runOf : β → List Value → Run Bool}

/-- Something takes just the numbers of arguments that fit, and does what is said with them. -/
structure ComesTo (arity : β → ℤ) (runOf : β → List Value → Run Bool) (fits : ℤ → Prop)
    (run : List Value → Run Bool) (b : β) : Prop where
  fits_iff : ∀ n, fits n ↔ arity b = n
  run_eq : ∀ args : List Value, arity b = args.length → runOf b args = run args

/-- What is put together takes the numbers of arguments that fit and does what is said with them. If
no number fits, nothing is put together, because numbers differ. -/
inductive Settles (arity : β → ℤ) (runOf : β → List Value → Run Bool) (fits : ℤ → Prop)
    (run : List Value → Run Bool) : Except PolicyError β → Prop
  | made {b : β} (h : ComesTo arity runOf fits run b) : Settles arity runOf fits run (.ok b)
  | refused {n m : ℤ} (h : ∀ k, ¬ fits k) :
      Settles arity runOf fits run (.error (.arityMismatch none n m))

/-- Several things are put together in a row: all of them have to take as many arguments, and each
does what it does until one does not hold. -/
abbrev JoinsTo (arity : β → ℤ) (runOf : β → List Value → Run Bool) (bs : List β) :
    Except PolicyError β → Prop :=
  Settles arity runOf (fun n ↦ ∀ b ∈ bs, arity b = n) fun args ↦ Run.conj (bs.map (runOf · args))

/-- Something that is put together by comparing numbers of arguments is refused just if none of them
fits. -/
theorem joinsTo_of_comparesArity {b : β} {bs : List β} {x : Except PolicyError β}
    (hx : ComparesArity (arity b) (bs.map arity) x)
    (hok : ∀ d, x = .ok d → arity d = arity b ∧ ∀ args : List Value, arity d = args.length →
      runOf d args = Run.conj ((b :: bs).map (runOf · args))) :
    JoinsTo arity runOf (b :: bs) x := by
  by_cases hall : ∀ c ∈ bs, arity c = arity b
  · obtain ⟨d, rfl⟩ := hx.accepts (List.forall_mem_map.mpr hall)
    obtain ⟨harity, hrun⟩ := hok d rfl
    refine .made ⟨fun n ↦ ?_, hrun⟩
    rw [harity, List.forall_mem_cons]
    exact ⟨fun h ↦ h.1, fun h ↦ ⟨h, fun c hc ↦ (hall c hc).trans h⟩⟩
  · cases hfind : (bs.map arity).find? (· ≠ arity b) with
    | none =>
      refine absurd (fun c hc ↦ ?_) hall
      simpa using List.find?_eq_none.mp hfind (arity c) (List.mem_map_of_mem hc)
    | some m =>
      rw [hx.refuses m hfind]
      refine .refused fun k hk ↦ hall fun c hc ↦ ?_
      obtain ⟨hb, hbs⟩ := List.forall_mem_cons.mp hk
      exact (hbs c hc).trans hb.symm

namespace Settles

variable {fits fits' : ℤ → Prop} {run run' : List Value → Run Bool} {x : Except PolicyError β}

theorem congr (hx : Settles arity runOf fits run x) (hfits : ∀ n, fits n ↔ fits' n)
    (hrun : ∀ args : List Value, run args = run' args) : Settles arity runOf fits' run' x := by
  obtain rfl : fits = fits' := funext fun n ↦ propext (hfits n)
  obtain rfl : run = run' := funext hrun
  exact hx

theorem exists_ok_iff (hx : Settles arity runOf fits run x) : (∃ b, x = .ok b) ↔ ∃ n, fits n := by
  cases hx with
  | @made b h => exact iff_of_true ⟨b, rfl⟩ ⟨arity b, (h.fits_iff _).mpr rfl⟩
  | refused h => exact iff_of_false (by rintro ⟨b, ⟨⟩⟩) fun ⟨n, hn⟩ ↦ h n hn

end Settles

/-- What is joined of some things fits and does what each of them does. -/
theorem settles_of_forall₂ {fits : γ → ℤ → Prop} {run : γ → List Value → Run Bool} {gs : List γ}
    {bs : List β} (hbs : List.Forall₂ (fun g ↦ ComesTo arity runOf (fits g) (run g)) gs bs)
    {x : Except PolicyError β} (hx : JoinsTo arity runOf bs x) :
    Settles arity runOf (fun n ↦ ∀ g ∈ gs, fits g n) (fun args ↦ Run.conj (gs.map (run · args)))
      x := by
  have hfits (n : ℤ) : (∀ b ∈ bs, arity b = n) ↔ ∀ g ∈ gs, fits g n := by
    clear hx
    induction hbs with
    | nil => simp
    | cons hg _ ih => rw [List.forall_mem_cons, List.forall_mem_cons, hg.fits_iff, ih]
  cases hx with
  | refused h => exact .refused fun k hk ↦ h k ((hfits k).mpr hk)
  | made h =>
    refine .made ⟨fun n ↦ (hfits n).symm.trans (h.fits_iff n), fun args hargs ↦ ?_⟩
    have hall : ∀ b ∈ bs, arity b = args.length := (h.fits_iff args.length).mpr hargs
    have hmap : bs.map (runOf · args) = gs.map (run · args) := by
      clear hfits h
      induction hbs with
      | nil => rfl
      | cons hg _ ih =>
        obtain ⟨hfirst, hrest⟩ := List.forall_mem_cons.mp hall
        rw [List.map_cons, List.map_cons, hg.run_eq args hfirst, ih hrest]
    rw [h.run_eq args hargs, hmap]

/-- A step for each of some things gives what each of the steps settles on, or else one of them has
been refused. -/
theorem exists_forall₂_or_refused {fits : γ → ℤ → Prop} {run : γ → List Value → Run Bool}
    {f : γ → Except PolicyError β} {gs : List γ}
    (hgs : ∀ g ∈ gs, Settles arity runOf (fits g) (run g) (f g)) :
    (∃ bs, gs.mapM f = .ok bs ∧
      List.Forall₂ (fun g ↦ ComesTo arity runOf (fits g) (run g)) gs bs) ∨
    ∃ n m, gs.mapM f = .error (.arityMismatch none n m) ∧ ∃ g ∈ gs, ∀ k, ¬ fits g k := by
  cases hmap : gs.mapM f with
  | ok bs =>
    refine .inl ⟨bs, rfl, ?_⟩
    have hall : List.Forall₂ (fun g b ↦ g ∈ gs ∧ f g = .ok b) gs bs :=
      (List.forall₂_and_left gs bs).mpr ⟨fun _ hg ↦ hg, mapM_eq_ok.mp hmap⟩
    refine hall.imp fun g b ⟨hg, hb⟩ ↦ ?_
    have hsettles := hgs g hg
    rw [hb] at hsettles
    cases hsettles with
    | made h => exact h
  | error e =>
    obtain ⟨g, hg, he⟩ := exists_of_mapM_eq_error hmap
    have hsettles := hgs g hg
    rw [he] at hsettles
    cases hsettles with
    | @refused n m h => exact .inr ⟨n, m, rfl, g, hg, h⟩

/-- **Lists.** Where each step settles on something, and what they give is joined, this settles on
the conjunction. -/
theorem settles_mapM {fits : γ → ℤ → Prop} {run : γ → List Value → Run Bool}
    {f : γ → Except PolicyError β} {gs : List γ}
    (hgs : ∀ g ∈ gs, Settles arity runOf (fits g) (run g) (f g)) (hne : gs ≠ [])
    {join : List β → Except PolicyError β}
    (hjoin : ∀ bs, bs ≠ [] → JoinsTo arity runOf bs (join bs)) :
    Settles arity runOf (fun n ↦ ∀ g ∈ gs, fits g n) (fun args ↦ Run.conj (gs.map (run · args)))
      (gs.mapM f >>= join) := by
  rcases exists_forall₂_or_refused hgs with ⟨bs, hbs, hall⟩ | ⟨n, m, hrefused, g, hg, hnone⟩
  · have hbs_ne : bs ≠ [] := by
      rintro rfl
      exact hne (List.forall₂_nil_right_iff.mp hall)
    rw [hbs]
    exact settles_of_forall₂ hall (hjoin bs hbs_ne)
  · rw [hrefused]
    exact .refused fun k hk ↦ hnone k (hk g hg)

/-- Two things, of which the first one is put together first. -/
theorem Settles.pair {fits fits' : ℤ → Prop} {run run' : List Value → Run Bool}
    {x y : Except PolicyError β} (hx : Settles arity runOf fits run x)
    (hy : Settles arity runOf fits' run' y) {op : β → β → Except PolicyError β}
    (hop : ∀ b c, JoinsTo arity runOf [b, c] (op b c)) :
    Settles arity runOf (fun n ↦ fits n ∧ fits' n) (fun args ↦ Run.conj [run args, run' args])
      (x >>= fun b ↦ y >>= fun c ↦ op b c) := by
  cases hx with
  | refused h => exact .refused fun k hk ↦ h k hk.1
  | @made b hb =>
    cases hy with
    | refused h => exact .refused fun k hk ↦ h k hk.2
    | @made c hc =>
      have hboth : List.Forall₂
          (fun i ↦ ComesTo arity runOf (bif i then fits else fits') (bif i then run else run'))
          [true, false] [b, c] := .cons hb (.cons hc .nil)
      refine (settles_of_forall₂ hboth (hop b c)).congr (fun n ↦ ?_) fun args ↦ rfl
      simp [and_comm]

end

/-! ## Brackets -/

/-- Items of a list, put together in pairs. -/
inductive Grouping (α : Type) where
  | item (a : α)
  | pair (left right : Grouping α)

namespace Grouping

variable {α β : Type} {arity : β → ℤ} {runOf : β → List Value → Run Bool}

def items : Grouping α → List α
  | item a => [a]
  | pair left right => left.items ++ right.items

/-- Put the items together two at a time. -/
def combine (op : β → β → Except PolicyError β) (f : α → Except PolicyError β) :
    Grouping α → Except PolicyError β
  | item a => f a
  | pair left right => do
    let l ← left.combine op f
    let r ← right.combine op f
    op l r

theorem items_ne_nil (g : Grouping α) : g.items ≠ [] := by
  induction g with
  | item a => exact List.cons_ne_nil a []
  | pair left right ihleft _ => exact List.append_ne_nil_of_left_ne_nil ihleft _

/-- **Brackets do not matter.** However items are put together in pairs, this settles on the
conjunction of what they settle on. -/
theorem settles_combine {fits : α → ℤ → Prop} {run : α → List Value → Run Bool}
    {f : α → Except PolicyError β} {op : β → β → Except PolicyError β} {g : Grouping α}
    (hitems : ∀ a ∈ g.items, Settles arity runOf (fits a) (run a) (f a))
    (hop : ∀ b c, JoinsTo arity runOf [b, c] (op b c)) :
    Settles arity runOf (fun n ↦ ∀ a ∈ g.items, fits a n)
      (fun args ↦ Run.conj (g.items.map (run · args))) (g.combine op f) := by
  induction g with
  | item a =>
    have hitem := hitems a (List.mem_singleton_self a)
    exact hitem.congr (fun n ↦ by simp [items]) fun args ↦ (Run.upTo_singleton false _).symm
  | pair left right ihleft ihright =>
    obtain ⟨hleft, hright⟩ := List.forall_mem_append.mp hitems
    refine ((ihleft hleft).pair (ihright hright) hop).congr (fun n ↦ ?_) fun args ↦ ?_
    · exact List.forall_mem_append.symm
    · rw [items, List.map_append]
      simpa using Run.upTo_map_upTo false [left.items.map (run · args), right.items.map (run · args)]

end Grouping

/-! ## Predicates -/

theorem ComparesArity.of_cons_self {α : Type} {n : ℤ} {ms : List ℤ} {x : Except PolicyError α}
    (h : ComparesArity n (n :: ms) x) : ComparesArity n ms x where
  accepts hms := h.accepts (List.forall_mem_cons.mpr ⟨rfl, hms⟩)
  refuses m hm := h.refuses m (by rwa [List.find?_cons_of_neg (by simp)])

namespace Predicate

/-- A predicate as it is seen from outside of a list that it is an item of. -/
def holdsInGenerator (p : Predicate) (args : List Value) : Run Bool := (p.holds args).inGenerator

/-- What a way to make a predicate settles on. -/
abbrev Settles : (ℤ → Prop) → (List Value → Run Bool) → Except PolicyError Predicate → Prop :=
  Policy.Settles arity holdsInGenerator

theorem joinsTo_and (p q : Predicate) : JoinsTo arity holdsInGenerator [p, q] (p.and q) := by
  refine joinsTo_of_comparesArity (p.comparesArity_and q) fun r hr ↦ ?_
  obtain ⟨harity, -, hholds⟩ := holds_of_and hr
  refine ⟨harity, fun args _ ↦ ?_⟩
  rw [holdsInGenerator, hholds, Run.inGenerator_upTo]
  rfl

/-- A list is in a generator already. -/
theorem holdsInGenerator_of_allOf {ps : List Predicate} {arity : Option ℤ} {p : Predicate}
    (h : allOf ps arity = .ok p) (args : List Value) : p.holdsInGenerator args = p.holds args := by
  rw [holdsInGenerator, (holds_of_allOf h).2, Run.inGenerator_upTo, List.map_map]
  exact congrArg Run.conj (List.map_congr_left fun q _ ↦ Run.inGenerator_inGenerator _)

theorem joinsTo_allOf {ps : List Predicate} (hps : ps ≠ []) :
    JoinsTo arity holdsInGenerator ps (allOf ps) := by
  obtain ⟨p, ps, rfl⟩ := List.exists_cons_of_ne_nil hps
  have hcompares : ComparesArity p.arity ((p :: ps).map arity) (allOf (p :: ps)) :=
    comparesArity_allOf rfl
  refine joinsTo_of_comparesArity hcompares.of_cons_self fun r hr ↦ ?_
  refine ⟨(holds_of_allOf hr).1 p List.mem_cons_self, fun args _ ↦ ?_⟩
  rw [holdsInGenerator_of_allOf hr]
  exact (holds_of_allOf hr).2 args

end Predicate

/-! ## Bounds -/

namespace Bound

/-- A bound as it would be seen from outside of a generator. -/
def holdsInGenerator (b : Bound) (args : List Value) : Run Bool := (b.holds args).inGenerator

/-- What a way to make a bound settles on. -/
abbrev Settles : (ℤ → Prop) → (List Value → Run Bool) → Except PolicyError Bound → Prop :=
  Policy.Settles arity holdsInGenerator

theorem joinsTo_and (b c : Bound) : JoinsTo arity holdsInGenerator [b, c] (b.and c) := by
  refine joinsTo_of_comparesArity (isRowOf_and.comparesArity_pair b c) fun d hd ↦ ?_
  refine ⟨(isRowOf_and.arity_eq hd).1.symm, fun args hargs ↦ ?_⟩
  rw [holdsInGenerator, holds_of_and hd hargs, Run.inGenerator_upTo]
  rfl

theorem joinsTo_allOf {bs : List Bound} (hbs : bs ≠ []) :
    JoinsTo arity holdsInGenerator bs (allOf bs) := by
  obtain ⟨b, bs, rfl⟩ := List.exists_cons_of_ne_nil hbs
  refine joinsTo_of_comparesArity (isRowOf_and.comparesArity b bs) fun d hd ↦ ?_
  refine ⟨(isRowOf_and.arity_of_foldlM hd).symm, fun args hargs ↦ ?_⟩
  rw [holdsInGenerator, holds_of_allOf hd hargs, Run.inGenerator_upTo, List.map_map]
  rfl

/-- Every name is that of a type, or null. -/
def AreTypes (names : Option (List Value)) : Prop :=
  ∀ ns ∈ names, ∃ types : ParamTypes, ns.mapM typeOfValue = .ok types

/-- There are as many names as arguments, if there are any. -/
def AreFor (names : Option (List Value)) (n : ℤ) : Prop := ∀ ns ∈ names, (ns.length : ℤ) = n

/-- The arguments as they are read at the types that are named. -/
def readAt (names : Option (List Value)) (args : List Value) : Except PolicyError (List Value) :=
  (typesOf names).elim (.ok args) (·.read args)

theorem holds_eq_bind_read (b : Bound) {args : List Value} (hargs : b.arity = args.length) :
    b.holds args =
      Run.ofExcept (b.types.elim (.ok args) (·.read args)) >>= fun vs ↦ b.predicate.holds vs := by
  rw [holds, Bound.read, expectArity, if_pos hargs]
  cases b.types with
  | none => rfl
  | some types => rfl

/-- An argument that cannot be read is no failure of a host function. -/
theorem inGenerator_ofExcept_read (types : ParamTypes) (args : List Value) :
    (Run.ofExcept (types.read args)).inGenerator = Run.ofExcept (types.read args) := by
  cases h : types.read args with
  | ok vs => rfl
  | error e =>
    obtain ⟨v, -, fault, -, rfl⟩ := ParamTypes.exists_of_read_eq_error h
    rfl

theorem holdsInGenerator_eq_bind_read (b : Bound) {args : List Value}
    (hargs : b.arity = args.length) :
    b.holdsInGenerator args =
      Run.ofExcept (b.types.elim (.ok args) (·.read args)) >>= b.predicate.holdsInGenerator := by
  rw [holdsInGenerator, holds_eq_bind_read b hargs, Run.inGenerator_bind]
  cases b.types with
  | none => rfl
  | some types =>
    rw [Option.elim_some, inGenerator_ofExcept_read]
    rfl

theorem typesOf_of_mapM {ns : List Value} {types : ParamTypes}
    (h : ns.mapM typeOfValue = .ok types) : typesOf (some ns) = some types := by
  have hall := (mapM_eq_ok.mp h).imp fun _ _ ↦ typeOfValue_eq_ok
  rw [← List.forall₂_map_left_iff, List.forall₂_eq_eq_eq] at hall
  rw [typesOf, Option.map_some, hall]

/-- **Types.** With types, a predicate goes with their number only, and does what it does with what
is read at them. -/
theorem settles_ofPredicate {names : Option (List Value)} (hnames : AreTypes names)
    {fits : ℤ → Prop} {run : List Value → Run Bool} {x : Except PolicyError Predicate}
    (hx : Predicate.Settles fits run x) :
    Bound.Settles (fun n ↦ fits n ∧ AreFor names n)
      (fun args ↦ Run.ofExcept (readAt names args) >>= run) (x >>= (ofPredicate · names)) := by
  cases hx with
  | refused h => exact .refused fun k hk ↦ h k hk.1
  | @made p hp =>
    cases names with
    | none =>
      refine .made ⟨fun n ↦ ?_, fun args hargs ↦ ?_⟩
      · exact (and_iff_left nofun).trans (hp.fits_iff n)
      · rw [holdsInGenerator_eq_bind_read _ hargs]
        exact hp.run_eq args hargs
    | some ns =>
      obtain ⟨types, htypes⟩ := hnames ns rfl
      have hlength : ns.length = types.length := (mapM_eq_ok.mp htypes).length_eq
      by_cases harity : (types.length : ℤ) = p.arity
      · obtain ⟨b, hb, hpredicate, hdeclared⟩ := exists_ofPredicate htypes harity
        have hsame : b.arity = p.arity := by rw [arity, hpredicate]
        change Bound.Settles _ _ (ofPredicate p (some ns))
        rw [hb]
        refine .made ⟨fun n ↦ ?_, fun args hargs ↦ ?_⟩
        · rw [hsame, hp.fits_iff]
          refine and_iff_left_of_imp fun hn ↦ ?_
          rintro _ ⟨⟩
          rw [hlength, harity, hn]
        · rw [holdsInGenerator_eq_bind_read b hargs, hdeclared, hpredicate, readAt,
            typesOf_of_mapM htypes]
          simp only [Option.elim_some]
          cases hvs : types.read args with
          | error e => rfl
          | ok vs =>
            have hargs' : types.length = args.length := by
              exact_mod_cast harity.trans (hsame.symm.trans hargs)
            refine hp.run_eq vs ?_
            rw [ParamTypes.length_of_read hargs' hvs, ← hargs, hsame]
      · change Bound.Settles _ _ (ofPredicate p (some ns))
        rw [ofPredicate_of_length_ne htypes harity]
        refine .refused fun k hk ↦ harity ?_
        rw [← hlength, hk.2 ns rfl]
        exact ((hp.fits_iff k).mp hk.1).symm

/-! ## The two forms -/

/-- The bound of a list of items, all of which have to hold. -/
def ofItems (names : Option (List Value)) (xs : List PredicateLike) : Except PolicyError Bound := do
  let ps ← xs.mapM PredicateLike.toPredicate
  ofPredicate (← Predicate.allOf ps) names

/-- Each item as a bound, and these combined from the left. -/
def foldItems (names : Option (List Value)) (xs : List PredicateLike) :
    Except PolicyError Bound := do
  allOf (← xs.mapM fun x ↦ do ofPredicate (← x.toPredicate) names)

section

variable (names : Option (List Value)) (groups : List (Grouping Predicate))

/-- The bound of a list of predicates, of which some are put together first. -/
def ofGroups : Except PolicyError Bound := do
  let ps ← groups.mapM (·.combine Predicate.and pure)
  ofPredicate (← Predicate.allOf ps) names

/-- Some predicates are put together, each is made a bound, and these are combined. -/
def foldGroups : Except PolicyError Bound := do
  allOf (← groups.mapM fun g ↦ do ofPredicate (← g.combine Predicate.and pure) names)

/-- Each predicate is made a bound, some of these are put together, and then all are combined. -/
def foldBoundGroups : Except PolicyError Bound := do
  allOf (← groups.mapM (·.combine Bound.and (ofPredicate · names)))

end

/-- Two ways to make a bound are alike: both are refused for the numbers of arguments, or both give
a bound, for as many arguments, and the first of the bounds follows the second whatever they are
given. It makes the same calls and has the same verdict, and it fails where the other one fails. -/
inductive Agree : Except PolicyError Bound → Except PolicyError Bound → Prop
  | made {b c : Bound} (harity : b.arity = c.arity)
      (hholds : ∀ args : List Value, (b.holds args).Follows (c.holds args)) : Agree (.ok b) (.ok c)
  | refused {n m n' m' : ℤ} :
      Agree (.error (.arityMismatch none n m)) (.error (.arityMismatch none n' m'))

/-- The bound of a list is in a generator already, whatever its types. -/
theorem holdsInGenerator_of_ofItems {names : Option (List Value)} {xs : List PredicateLike}
    {b : Bound} (h : ofItems names xs = .ok b) {args : List Value} (hargs : b.arity = args.length) :
    b.holdsInGenerator args = b.holds args := by
  simp only [ofItems, bind_eq_ok] at h
  obtain ⟨ps, -, p, hp, h⟩ := h
  rw [holdsInGenerator_eq_bind_read b hargs, holds_eq_bind_read b hargs,
    predicate_of_ofPredicate h]
  congr 1
  exact funext (Predicate.holdsInGenerator_of_allOf hp)

/-- The bound of a list and a bound that is made in another way are alike if both ways settle on the
same. -/
theorem Settles.agree {fits : ℤ → Prop} {run : List Value → Run Bool}
    {names : Option (List Value)} {xs : List PredicateLike} {y : Except PolicyError Bound}
    (hx : Bound.Settles fits run (ofItems names xs)) (hy : Bound.Settles fits run y) :
    Agree (ofItems names xs) y := by
  have hlist (b : Bound) (h : ofItems names xs = .ok b) (args : List Value) :
      b.arity = args.length → b.holdsInGenerator args = b.holds args :=
    holdsInGenerator_of_ofItems h
  generalize ofItems names xs = x at hx hlist ⊢
  cases hx with
  | refused h =>
    cases hy with
    | refused _ => exact .refused
    | @made c hc => exact absurd ((hc.fits_iff c.arity).mpr rfl) (h _)
  | @made b hb =>
    cases hy with
    | refused h => exact absurd ((hb.fits_iff b.arity).mpr rfl) (h _)
    | @made c hc =>
      have harity : b.arity = c.arity := ((hc.fits_iff _).mp ((hb.fits_iff _).mpr rfl)).symm
      refine .made harity fun args ↦ ?_
      by_cases hargs : b.arity = args.length
      · have hout : b.holds args = (c.holds args).inGenerator := by
          rw [← hlist b rfl args hargs, hb.run_eq args hargs, ← hc.run_eq args (harity ▸ hargs)]
          rfl
        rw [hout]
        exact (c.holds args).follows_inGenerator
      · rw [holds_of_arity_ne hargs, holds_of_arity_ne (harity ▸ hargs), harity]
        exact .refl _

section

variable {names : Option (List Value)} {parts : List Predicate} {groups : List (Grouping Predicate)}

/-- A number of arguments that all of some predicates take, and that there are types for. -/
def FitsAll (names : Option (List Value)) (parts : List Predicate) (n : ℤ) : Prop :=
  (∀ p ∈ parts, p.arity = n) ∧ AreFor names n

/-- Read the arguments once, and evaluate all of some predicates on what is read. -/
def readThenHold (names : Option (List Value)) (parts : List Predicate) (args : List Value) :
    Run Bool :=
  Run.ofExcept (readAt names args) >>= fun vs ↦ Run.conj (parts.map (·.holdsInGenerator vs))

theorem settles_predicate (p : Predicate) :
    Predicate.Settles (p.arity = ·) p.holdsInGenerator (pure p) :=
  .made ⟨fun _ ↦ Iff.rfl, fun _ _ ↦ rfl⟩

theorem settles_group (g : Grouping Predicate) :
    Predicate.Settles (fun n ↦ ∀ p ∈ g.items, p.arity = n)
      (fun args ↦ Run.conj (g.items.map (·.holdsInGenerator args)))
      (g.combine Predicate.and pure) :=
  Grouping.settles_combine (fun p _ ↦ settles_predicate p) Predicate.joinsTo_and

theorem conj_groups (groups : List (Grouping Predicate)) (f : Predicate → Run Bool) :
    Run.conj (groups.map fun g ↦ Run.conj (g.items.map f)) =
      Run.conj ((groups.flatMap Grouping.items).map f) := by
  have hrows := Run.upTo_map_upTo false (groups.map fun g ↦ g.items.map f)
  rw [List.map_map] at hrows
  rw [List.flatMap, List.map_flatten, List.map_map]
  exact hrows

theorem settles_ofGroups (hnames : AreTypes names) (hgroups : groups ≠ []) :
    Bound.Settles (FitsAll names (groups.flatMap Grouping.items))
      (readThenHold names (groups.flatMap Grouping.items)) (ofGroups names groups) := by
  have hlist := settles_mapM (fun g _ ↦ settles_group g) hgroups fun ps ↦ Predicate.joinsTo_allOf
  have hall := settles_ofPredicate hnames hlist
  rw [bind_assoc] at hall
  refine hall.congr (fun n ↦ and_congr_left' ?_) fun args ↦ ?_
  · exact List.forall_mem_flatMap.symm
  · simp only [readThenHold, conj_groups]

theorem settles_foldGroups (hnames : AreTypes names) (hgroups : groups ≠ []) :
    Bound.Settles (FitsAll names (groups.flatMap Grouping.items))
      (readThenHold names (groups.flatMap Grouping.items)) (foldGroups names groups) := by
  have hall := settles_mapM (fun g _ ↦ settles_ofPredicate hnames (settles_group g)) hgroups
    fun bs ↦ joinsTo_allOf
  refine hall.congr (fun n ↦ ?_) fun args ↦ ?_
  · obtain ⟨g, gs, rfl⟩ := List.exists_cons_of_ne_nil hgroups
    rw [FitsAll, List.forall_mem_flatMap]
    exact ⟨fun h ↦ ⟨fun g hg ↦ (h g hg).1, (h g List.mem_cons_self).2⟩,
      fun h g hg ↦ ⟨h.1 g hg, h.2⟩⟩
  · have hread := Run.upTo_map_bind false (readAt names args)
      (groups.map fun g vs ↦ Run.conj (g.items.map (·.holdsInGenerator vs)))
      (by simpa using hgroups)
    rw [List.map_map] at hread
    refine hread.trans ?_
    simp only [List.map_map, readThenHold, ← conj_groups]
    rfl

theorem flatMap_items_ne_nil (hgroups : groups ≠ []) : groups.flatMap Grouping.items ≠ [] := by
  obtain ⟨g, gs, rfl⟩ := List.exists_cons_of_ne_nil hgroups
  exact List.append_ne_nil_of_left_ne_nil g.items_ne_nil _

theorem settles_foldBoundGroups (hnames : AreTypes names) (hgroups : groups ≠ []) :
    Bound.Settles (FitsAll names (groups.flatMap Grouping.items))
      (readThenHold names (groups.flatMap Grouping.items)) (foldBoundGroups names groups) := by
  have hgroup (g : Grouping Predicate) := Grouping.settles_combine (g := g)
    (fun p _ ↦ settles_ofPredicate hnames (settles_predicate p)) joinsTo_and
  have hall := settles_mapM (fun g _ ↦ hgroup g) hgroups fun bs ↦ joinsTo_allOf
  have hparts := flatMap_items_ne_nil hgroups
  refine hall.congr (fun n ↦ ?_) fun args ↦ ?_
  · rw [← List.forall_mem_flatMap]
    obtain ⟨p, ps, hps⟩ := List.exists_cons_of_ne_nil hparts
    rw [FitsAll, hps]
    exact ⟨fun h ↦ ⟨fun q hq ↦ (h q hq).1, (h p List.mem_cons_self).2⟩,
      fun h q hq ↦ ⟨h.1 q hq, h.2⟩⟩
  · have hread := Run.upTo_map_bind false (readAt names args)
      ((groups.flatMap Grouping.items).map Predicate.holdsInGenerator) (by simpa using hparts)
    simp only [List.map_map] at hread
    exact (conj_groups groups _).trans hread

end

theorem mapM_bind_of_ok {α β γ ε : Type} {f : α → Except ε β} {as : List α} {bs : List β}
    (h : as.mapM f = .ok bs) (g : β → Except ε γ) : as.mapM (fun a ↦ f a >>= g) = bs.mapM g := by
  rw [mapM_eq_ok] at h
  induction h with
  | nil => rfl
  | @cons a b as bs hb _ ih =>
    rw [List.mapM_cons, List.mapM_cons, hb, ih]
    rfl

theorem flatMap_items_map_item (parts : List Predicate) :
    (parts.map Grouping.item).flatMap Grouping.items = parts := by
  rw [List.flatMap_map]
  exact List.flatMap_singleton' parts

section

variable {names : Option (List Value)} {xs : List PredicateLike} {parts : List Predicate}

theorem ofItems_eq_ofGroups (h : xs.mapM PredicateLike.toPredicate = .ok parts) :
    ofItems names xs = ofGroups names (parts.map .item) := by
  have hpure : (parts.map Grouping.item).mapM (Grouping.combine Predicate.and pure) =
      (pure parts : Except PolicyError (List Predicate)) := by
    rw [List.mapM_map]
    exact (List.mapM_pure (f := id)).trans (by rw [List.map_id])
  rw [ofItems, ofGroups, h, hpure]
  rfl

theorem foldItems_eq_foldGroups (h : xs.mapM PredicateLike.toPredicate = .ok parts) :
    foldItems names xs = foldGroups names (parts.map .item) := by
  rw [foldItems, foldGroups, mapM_bind_of_ok h, List.mapM_map]
  rfl

end

/-- **A list of predicates is as good as a fold of bounds.** Let there be at least one item, each a
predicate or a function of which it is known how many arguments it takes, and let the types be
types. The list is accepted just if all items take as many arguments, and as many as there are types
if any are given. The fold of the items is alike, and so is everything where neighbours are put
together first: the items of the list, those of the fold, or the bounds of the fold. -/
theorem ofItems_agree {names : Option (List Value)} {xs : List PredicateLike}
    {parts : List Predicate} (hxs : xs ≠ []) (hparts : xs.mapM PredicateLike.toPredicate = .ok parts)
    (hnames : AreTypes names) :
    ((∃ b, ofItems names xs = .ok b) ↔
      ∃ n, (∀ p ∈ parts, p.arity = n) ∧ ∀ ns ∈ names, (ns.length : ℤ) = n) ∧
    Agree (ofItems names xs) (foldItems names xs) ∧
    ∀ groups : List (Grouping Predicate), groups.flatMap Grouping.items = parts →
      Agree (ofItems names xs) (ofGroups names groups) ∧
      Agree (ofItems names xs) (foldGroups names groups) ∧
      Agree (ofItems names xs) (foldBoundGroups names groups) := by
  have hparts_ne : parts ≠ [] := by
    rintro rfl
    exact hxs (List.forall₂_nil_right_iff.mp (mapM_eq_ok.mp hparts))
  have hsingle : parts.map Grouping.item ≠ [] := by simpa using hparts_ne
  have hlist : Bound.Settles (FitsAll names parts) (readThenHold names parts)
      (ofItems names xs) := by
    simpa only [flatMap_items_map_item, ofItems_eq_ofGroups hparts] using
      settles_ofGroups hnames hsingle
  have hfold : Bound.Settles (FitsAll names parts) (readThenHold names parts)
      (foldItems names xs) := by
    simpa only [flatMap_items_map_item, foldItems_eq_foldGroups hparts] using
      settles_foldGroups hnames hsingle
  refine ⟨hlist.exists_ok_iff, hlist.agree hfold, fun groups hgroups ↦ ?_⟩
  subst hgroups
  have hgroups_ne : groups ≠ [] := by
    rintro rfl
    exact hparts_ne rfl
  exact ⟨hlist.agree (settles_ofGroups hnames hgroups_ne),
    hlist.agree (settles_foldGroups hnames hgroups_ne),
    hlist.agree (settles_foldBoundGroups hnames hgroups_ne)⟩

/-- Two functions and a predicate that read one argument as a byte. The list declares the type, and
the fold, with the last two put together as bounds first, has it three times inside; both call the
first function, then the predicate, which does not hold, and nothing else. Without the type, and
with an item that takes two arguments, both are refused. -/
theorem ofItems_agree_byte :
    let f : HostFunction := ⟨some "f", some [.positional], fun _ ↦ ⟨[], .ok true⟩⟩
    let g : HostFunction := ⟨some "g", none, fun _ ↦ ⟨[], .ok false⟩⟩
    let p : Predicate := .function f 1
    let q : Predicate := .function g 1
    let byte : Option (List Value) := some [.text "u8"]
    (∃ b c, ofItems byte [.operand (.function f), .predicate q, .operand (.function f)] = .ok b ∧
      foldBoundGroups byte [.item p, .pair (.item q) (.item p)] = .ok c ∧
      b.types = some [some .u8] ∧ c.types = none ∧
      b.holds [.int (-1)] = ⟨[.called f [.int 255], .called g [.int 255]], .ok false⟩ ∧
      c.holds [.int (-1)] = ⟨[.called f [.int 255], .called g [.int 255]], .ok false⟩) ∧
    ¬ ∃ b, ofItems none [.predicate p, .predicate (.function g 2)] = .ok b := by
  intro f g p q byte
  have hbyte : AreTypes (some [.text "u8"]) := by
    rintro _ ⟨⟩
    exact ⟨[some .u8], rfl⟩
  constructor
  · obtain ⟨b, hb, htypes, hrun⟩ : ∃ b,
        ofItems byte [.operand (.function f), .predicate q, .operand (.function f)] = .ok b ∧
        b.types = some [some .u8] ∧
        b.holds [.int (-1)] = ⟨[.called f [.int 255], .called g [.int 255]], .ok false⟩ :=
      ⟨_, rfl, rfl, rfl⟩
    obtain ⟨c, hc, hnone⟩ : ∃ c,
        foldBoundGroups byte [.item p, .pair (.item q) (.item p)] = .ok c ∧ c.types = none :=
      ⟨_, rfl, rfl⟩
    have hagree := @ofItems_agree byte
      [.operand (.function f), .predicate q, .operand (.function f)] [p, q, p]
      (List.cons_ne_nil _ _) rfl hbyte
    have hsame := (hagree.2.2 [.item p, .pair (.item q) (.item p)] rfl).2.2
    rw [hb, hc] at hsame
    cases hsame with
    | made _ hholds =>
      have hsame := (hholds [.int (-1)]).eq_of_ok (congrArg Run.outcome hrun)
      exact ⟨b, c, hb, hc, htypes, hnone, hrun, hsame.symm.trans hrun⟩
  · have hmixed := @ofItems_agree none [.predicate p, .predicate (.function g 2)]
      [p, .function g 2] (List.cons_ne_nil _ _) rfl nofun
    rw [hmixed.1]
    rintro ⟨n, hn, -⟩
    obtain ⟨hp, hq⟩ := List.forall_mem_cons.mp hn
    have hone : (1 : ℤ) = n := hp
    have htwo : (2 : ℤ) = n := hq _ (List.mem_singleton_self _)
    omega

end Bound

/-- A term for a bound of a list makes its items first, and then the bound of the list. -/
theorem BoundTerm.build_predicates (items : List ItemTerm) (names : Option (List Value)) :
    (BoundTerm.predicates items names).build =
      items.mapM ItemTerm.build >>= Bound.ofItems names := by
  rw [build]
  rfl

end CallGate.Policy
