import CallGate.Proofs.Policy.BitPatterns

/-!
# Other types for a bound

A bound can be given other types than it has. What this does depends on how the bound was made. Of
a predicate at some types the old ones are forgotten, and the new ones stand in their place. A
combination declares no types of its own, and its parts keep theirs: the new types are applied
first, and each part reads what they have left.

The second case comes to nothing if the new types are wide enough. Reading at a type keeps the
residue modulo two to its width, and a part that declares at most that width looks at no more than
this (`ParamTypes.agreeUpTo_of_read`). So the arguments and what is read of them are two lists that
the combination cannot tell apart, and no law of one type after another is needed, however deep the
parts are nested.
-/

namespace CallGate.Policy

open CallGate.Abi CallGate.Data

/-! ## What is left of the arguments -/

theorem sameBits_of_readAs {type : Option ArgType} {v w : Value} {width : ℕ}
    (h : readAs type v = .ok w) (hv : IsReadable v) (hwide : ∀ t, type = some t → width ≤ t.bits) :
    SameBits width v w := by
  obtain ⟨n, hn⟩ := hv
  cases type with
  | none =>
    cases h
    exact ⟨n, n, hn, hn, rfl⟩
  | some t =>
    rw [readAs, hn] at h
    cases h
    have hmod : n ≡ t.reduce n [ZMOD 2 ^ t.bits] := (t.reduce_modEq n).symm
    exact ⟨n, t.reduce n, hn, rfl, hmod.of_dvd (pow_dvd_pow 2 (hwide t rfl))⟩

namespace ParamTypes

variable {types : ParamTypes} {args vs : List Value} {widths : ℕ → ℕ}

theorem exists_read (hreadable : ∀ v ∈ args, IsReadable v) : ∃ vs, types.read args = .ok vs := by
  cases hread : types.read args with
  | ok vs => exact ⟨vs, rfl⟩
  | error e =>
    obtain ⟨v, hv, fault, hfault, -⟩ := exists_of_read_eq_error hread
    obtain ⟨n, hn⟩ := hreadable v hv
    rw [hfault] at hn
    cases hn

/-- What is read agrees with the arguments in as many bits as the types have, and in all of them
where there is no type. -/
theorem agreeUpTo_of_read (hread : types.read args = .ok vs) (hlength : types.length = args.length)
    (hreadable : ∀ v ∈ args, IsReadable v)
    (hwide : ∀ i t, types[i]? = some (some t) → widths i ≤ t.bits) :
    AgreeUpTo widths args vs := by
  induction types generalizing args vs widths with
  | nil =>
    obtain rfl := List.length_eq_zero_iff.mp hlength.symm
    cases hread
    exact ⟨rfl, fun i v w hv ↦ by cases hv⟩
  | cons type types ih =>
    obtain ⟨v, args, rfl⟩ := List.exists_cons_of_length_eq_add_one hlength.symm
    obtain ⟨hv, hargs⟩ := List.forall_mem_cons.mp hreadable
    rw [read, List.zip_cons_cons, List.mapM_cons] at hread
    simp only [bind_eq_ok, pure_eq_ok] at hread
    obtain ⟨w, hw, ws, hws, rfl⟩ := hread
    refine .cons (sameBits_of_readAs hw hv fun t ht ↦ hwide 0 t (by rw [ht]; rfl)) ?_
    exact ih hws (Nat.succ.inj hlength) hargs fun i ↦ hwide (i + 1)

end ParamTypes

/-! ## Types for a predicate -/

namespace Bound

section

variable {p : Predicate} {names : List Value} {types : ParamTypes}

theorem exists_ofPredicate (hnames : names.mapM typeOfValue = .ok types)
    (hlength : (types.length : ℤ) = p.arity) :
    ∃ b, ofPredicate p (some names) = .ok b ∧ b.predicate = p ∧ b.types = some types := by
  rw [ofPredicate, hnames]
  simp only [bind, Except.bind, dif_pos hlength.symm]
  exact ⟨_, rfl, rfl, rfl⟩

theorem ofPredicate_of_length_ne (hnames : names.mapM typeOfValue = .ok types)
    (hlength : (types.length : ℤ) ≠ p.arity) :
    ofPredicate p (some names) = .error (.arityMismatch none p.arity types.length) := by
  rw [ofPredicate, hnames]
  simp only [bind, Except.bind, dif_neg hlength.symm]
  rfl

end

variable {b c : Bound} {names : Option (List Value)} {types : ParamTypes} {parts : List Bound}

theorem withTypes_withTypes (h : b.withTypes names = .ok c) (names' : Option (List Value)) :
    c.withTypes names' = b.withTypes names' := by
  rw [withTypes, withTypes, predicate_of_ofPredicate h]

theorem holds_of_types_eq_none (htypes : b.types = none) {args : List Value}
    (hargs : b.arity = args.length) : b.holds args = b.predicate.holds args := by
  rw [holds_eq_holds_toPredicate hargs, toPredicate, htypes]

theorem holds_of_read (htypes : c.types = some types) {args vs : List Value}
    (hargs : c.arity = args.length) (hread : types.read args = .ok vs) :
    c.holds args = c.predicate.holds vs := by
  rw [holds, Bound.read, expectArity, if_pos hargs, htypes]
  simp only [hread]
  rfl

/-- A combination of typed parts does not notice types that are as wide as those of its parts. -/
theorem CombinedFrom.holds_withTypes (hb : b.CombinedFrom parts) (h2 : 2 ≤ parts.length)
    (htyped : ∀ p ∈ parts, p.IsTyped) (hpredicate : c.predicate = b.predicate)
    (htypes : c.types = some types)
    (hwide : ∀ i t, types[i]? = some (some t) → ∀ p ∈ parts, p.widthAt i ≤ t.bits)
    {args : List Value} (hreadable : ∀ v ∈ args, IsReadable v) : c.holds args = b.holds args := by
  have harity : c.arity = b.arity := by rw [arity, arity, hpredicate]
  by_cases hargs : b.arity = args.length
  · have hlength : types.length = args.length := by
      have hdeclared : (types.length : ℤ) = c.arity := c.length_types types htypes
      exact_mod_cast hdeclared.trans (harity.trans hargs)
    obtain ⟨vs, hread⟩ : ∃ vs, types.read args = .ok vs := ParamTypes.exists_read hreadable
    have hvs : b.arity = vs.length := by rw [ParamTypes.length_of_read hlength hread, hargs]
    have hparts : ∀ p ∈ parts, p.holds args = p.holds vs := by
      intro p hp
      refine (htyped p hp).holds_congr ?_
      exact ParamTypes.agreeUpTo_of_read hread hlength hreadable fun i t ht ↦ hwide i t ht p hp
    calc c.holds args
        = b.predicate.holds vs := by
          rw [holds_of_read htypes (harity.trans hargs) hread, hpredicate]
      _ = b.holds vs := (holds_of_types_eq_none (hb.types_eq_none h2) hvs).symm
      _ = b.holds args :=
          (hb.holds_congr (ParamTypes.length_of_read hlength hread).symm hparts).symm
  · have hargs' : c.arity ≠ args.length := harity ▸ hargs
    rw [holds_of_arity_ne hargs, holds_of_arity_ne hargs', harity]

/-- **What other types do.** If there are as many as arguments, and not otherwise, a bound takes
them. It then forgets all types that it was given before, and hands the integers that are read at
the new types to its own predicate. A combination of at least two parts that read everything at
types does the same as before if no part declares a larger width than the new types. -/
theorem withTypes_exact {b : Bound} {names : List Value} {types : ParamTypes}
    (hnames : names.mapM typeOfValue = .ok types) :
    ((types.length : ℤ) ≠ b.arity →
      b.withTypes (some names) = .error (.arityMismatch none b.arity types.length)) ∧
    ((types.length : ℤ) = b.arity → ∃ c, b.withTypes (some names) = .ok c ∧
      (∀ names', c.withTypes names' = b.withTypes names') ∧
      (∀ args : List ℤ, b.arity = args.length →
        c.holds (args.map .int) = b.predicate.holds ((types.reduce args).map .int)) ∧
      ∀ parts, b.CombinedFrom parts → 2 ≤ parts.length → (∀ p ∈ parts, p.IsTyped) →
        (∀ i t, types[i]? = some (some t) → ∀ p ∈ parts, p.widthAt i ≤ t.bits) →
        ∀ args : List Value, (∀ v ∈ args, IsReadable v) → c.holds args = b.holds args) := by
  refine ⟨ofPredicate_of_length_ne hnames, fun hlength ↦ ?_⟩
  obtain ⟨c, hc, hpredicate, htypes⟩ := exists_ofPredicate hnames hlength
  refine ⟨c, hc, withTypes_withTypes hc, fun args hargs ↦ ?_,
    fun parts hb h2 htyped hwide args ↦ hb.holds_withTypes h2 htyped hpredicate htypes hwide⟩
  have harity : c.arity = (args.map Value.int).length := by
    rw [arity, hpredicate, List.length_map]
    exact hargs
  rw [holds_of_read htypes harity (types.read_int args), hpredicate]

/-- A bound that reads a byte reads the whole word instead when it is told to. Where it has been
combined with one that reads a signed half word, both go on as before behind a wider type. -/
theorem withTypes_exact_wider :
    let f : HostFunction := ⟨some "f", some [.positional], fun _ ↦ ⟨[], .ok true⟩⟩
    let byte : Bound := {
      predicate := .function f 1, types := some [some .u8]
      length_types := by rintro _ ⟨⟩; rfl }
    let half : Bound := {
      predicate := .function f 1, types := some [some .i16]
      length_types := by rintro _ ⟨⟩; rfl }
    ∃ b c d, byte.and half = .ok b ∧ byte.withTypes (some [.text "u32"]) = .ok c ∧
      b.withTypes (some [.text "u32"]) = .ok d ∧
      c.holds [.int (-1)] = ⟨[.called f [.int 0xffffffff]], .ok true⟩ ∧
      d.holds [.int (-1)] = ⟨[.called f [.int 255], .called f [.int (-1)]], .ok true⟩ ∧
      b.withTypes (some []) = .error (.arityMismatch none 1 0) := by
  intro f byte half
  obtain ⟨b, hb, harity, hminus⟩ : ∃ b, byte.and half = .ok b ∧ b.arity = 1 ∧
      b.holds [.int (-1)] = ⟨[.called f [.int 255], .called f [.int (-1)]], .ok true⟩ :=
    ⟨_, rfl, rfl, rfl⟩
  have hparts : b.CombinedFrom [byte, half] := .and (.part byte) (.part half) hb
  have htyped : ∀ p ∈ [byte, half], p.IsTyped :=
    List.forall_mem_cons.mpr ⟨⟨_, rfl, by decide⟩,
      List.forall_mem_singleton.mpr ⟨_, rfl, by decide⟩⟩
  have hwide : ∀ i t, [some ArgType.u32][i]? = some (some t) →
      ∀ p ∈ [byte, half], p.widthAt i ≤ t.bits := by
    intro i t ht
    cases i with
    | zero =>
      cases ht
      exact List.forall_mem_cons.mpr ⟨by decide, List.forall_mem_singleton.mpr (by decide)⟩
    | succ i => cases ht
  have hword : [Value.text "u32"].mapM typeOfValue = .ok [some .u32] := rfl
  obtain ⟨c, hc, -, hc_holds, -⟩ := (withTypes_exact (b := byte) hword).2 rfl
  obtain ⟨d, hd, -, -, hd_holds⟩ := (withTypes_exact hword).2 harity.symm
  refine ⟨b, c, d, hb, hc, hd, hc_holds [-1] rfl, ?_, ?_⟩
  · rw [hd_holds [byte, half] hparts le_rfl htyped hwide [.int (-1)]
      (List.forall_mem_singleton.mpr ⟨-1, rfl⟩), hminus]
  · have hnone : ([] : List Value).mapM typeOfValue = .ok [] := rfl
    have hne : (([] : ParamTypes).length : ℤ) ≠ b.arity := by
      rw [harity]
      decide
    have hrefuses := (withTypes_exact hnone).1 hne
    rwa [harity] at hrefuses

end Bound

end CallGate.Policy
