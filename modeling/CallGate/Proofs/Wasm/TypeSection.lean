import CallGate.Proofs.Wasm.TypeGrammar
import Mathlib.Data.List.FinRange

/-!
# Type sections

A type section is a vector of recursion groups, and what a module refers to is the space of all
members of all groups, counted through. This module says which groups can be written at all, what
the space of some groups is, and that reading a type section undoes writing one.

## What can be written

A relation without pairs would be read by a decoder that always fails. `InRange` says for each kind
of type which values can be written, in terms of the value alone, and the `exists_encoding_iff` of
that kind says that exactly those have an encoding.

## Places in the space

An index is resolved by a look-up in a flat list, but what it means is a group and a place in it.
`TypeRef.IsAt` states the meaning: the members of all groups before, and then the place.
-/

namespace CallGate.Wasm

open Decoder

/-! ## What can be written -/

def HeapType.InRange : HeapType → Prop
  | abstract _ => True
  | declared index => index < 2 ^ 32

theorem HeapType.exists_encoding_iff {heap : HeapType} :
    (∃ enc, heap.Encoding enc) ↔ heap.InRange := by
  cases heap with
  | abstract heap => exact iff_of_true ⟨_, .abstract heap⟩ trivial
  | declared index =>
    constructor
    · rintro ⟨enc, h⟩
      cases h with
      | declared h => exact Int.ofNat_lt.mp h.2.2.2
    · intro h
      exact ⟨_, .declared (Grammar.s33_padded h)⟩

def ValueType.InRange : ValueType → Prop
  | number _ => True
  | reference type => type.heap.InRange

theorem ValueType.exists_encoding_iff {type : ValueType} :
    (∃ enc, type.Encoding enc) ↔ type.InRange := by
  cases type with
  | number type => exact iff_of_true ⟨_, .number type⟩ trivial
  | reference type =>
    obtain ⟨isNullable, heap⟩ := type
    rw [InRange, ← HeapType.exists_encoding_iff]
    constructor
    · rintro ⟨enc, h⟩
      cases h with
      | short heap => exact ⟨_, .abstract heap⟩
      | nullable h => exact ⟨_, h⟩
      | nonNull h => exact ⟨_, h⟩
    · rintro ⟨enc, h⟩
      cases isNullable with
      | false => exact ⟨_, .nonNull h⟩
      | true => exact ⟨_, .nullable h⟩

def StorageType.InRange : StorageType → Prop
  | packed _ => True
  | value type => type.InRange

theorem StorageType.exists_encoding_iff {type : StorageType} :
    (∃ enc, type.Encoding enc) ↔ type.InRange := by
  cases type with
  | packed type => exact iff_of_true ⟨_, .packed type⟩ trivial
  | value type =>
    rw [InRange, ← ValueType.exists_encoding_iff]
    constructor
    · rintro ⟨enc, h⟩
      cases h with
      | value h => exact ⟨_, h⟩
    · rintro ⟨enc, h⟩
      exact ⟨_, .value h⟩

def FieldType.InRange (type : FieldType) : Prop := type.storage.InRange

theorem FieldType.exists_encoding_iff {type : FieldType} :
    (∃ enc, type.Encoding enc) ↔ type.InRange := by
  obtain ⟨storage, isMutable⟩ := type
  rw [InRange, ← StorageType.exists_encoding_iff]
  constructor
  · rintro ⟨enc, h⟩
    cases h with
    | constant h => exact ⟨_, h⟩
    | mutable h => exact ⟨_, h⟩
  · rintro ⟨enc, h⟩
    cases isMutable with
    | false => exact ⟨_, .constant h⟩
    | true => exact ⟨_, .mutable h⟩

/-- A list that a vector can hold, if each of its items can be written. -/
def FitsVector {α : Type} (P : α → Prop) (as : List α) : Prop :=
  as.length < 2 ^ 32 ∧ ∀ a ∈ as, P a

theorem exists_vector_iff_fits {α : Type} {G : Grammar α} {P : α → Prop}
    (h : ∀ {a}, (∃ enc, G a enc) ↔ P a) {as : List α} :
    (∃ enc, G.vector as enc) ↔ FitsVector P as := by
  simp only [Grammar.exists_vector_iff, FitsVector, h]

def CompositeType.InRange : CompositeType → Prop
  | function type =>
    FitsVector ValueType.InRange type.params ∧ FitsVector ValueType.InRange type.results
  | struct fields => FitsVector FieldType.InRange fields
  | array element => element.InRange

theorem CompositeType.exists_encoding_iff {type : CompositeType} :
    (∃ enc, type.Encoding enc) ↔ type.InRange := by
  cases type with
  | function type =>
    obtain ⟨params, results⟩ := type
    simp only [InRange, ← exists_vector_iff_fits ValueType.exists_encoding_iff]
    constructor
    · rintro ⟨enc, h⟩
      cases h with
      | function hparams hresults => exact ⟨⟨_, hparams⟩, _, hresults⟩
    · rintro ⟨⟨e₁, hparams⟩, e₂, hresults⟩
      exact ⟨_, .function hparams hresults⟩
  | struct fields =>
    rw [InRange, ← exists_vector_iff_fits FieldType.exists_encoding_iff]
    constructor
    · rintro ⟨enc, h⟩
      cases h with
      | struct h => exact ⟨_, h⟩
    · rintro ⟨enc, h⟩
      exact ⟨_, .struct h⟩
  | array element =>
    rw [InRange, ← FieldType.exists_encoding_iff]
    constructor
    · rintro ⟨enc, h⟩
      cases h with
      | array h => exact ⟨_, h⟩
    · rintro ⟨enc, h⟩
      exact ⟨_, .array h⟩

def SubType.InRange (type : SubType) : Prop :=
  FitsVector (· < 2 ^ 32) type.supertypes ∧ type.composite.InRange

theorem SubType.exists_encoding_iff {type : SubType} :
    (∃ enc, type.Encoding enc) ↔ type.InRange := by
  obtain ⟨composite, isFinal, supertypes⟩ := type
  rw [InRange, ← exists_vector_iff_fits Grammar.exists_u32_iff,
    ← CompositeType.exists_encoding_iff]
  constructor
  · rintro ⟨enc, h⟩
    cases h with
    | plain h =>
      exact ⟨Grammar.exists_vector_iff.mpr ⟨Nat.two_pow_pos 32, nofun⟩, _, h⟩
    | sub hs h => exact ⟨⟨_, hs⟩, _, h⟩
    | finalSub hs h => exact ⟨⟨_, hs⟩, _, h⟩
  · rintro ⟨⟨e₁, hs⟩, e₂, h⟩
    cases isFinal with
    | false => exact ⟨_, .sub hs h⟩
    | true => exact ⟨_, .finalSub hs h⟩

/-- A group without marker is a single declaration. -/
def RecGroup.InRange (group : RecGroup) : Prop :=
  (group.explicit = false → group.types.length = 1) ∧ FitsVector SubType.InRange group.types

theorem RecGroup.exists_encoding_iff {group : RecGroup} :
    (∃ enc, group.Encoding enc) ↔ group.InRange := by
  obtain ⟨types, explicit⟩ := group
  cases explicit with
  | false =>
    constructor
    · rintro ⟨enc, h⟩
      cases h with
      | lone h =>
        refine ⟨fun _ ↦ rfl, by simp, ?_⟩
        simpa using SubType.exists_encoding_iff.mp ⟨_, h⟩
    · rintro ⟨hone, -, htypes⟩
      obtain ⟨type, rfl⟩ := List.length_eq_one_iff.mp (hone rfl)
      obtain ⟨enc, h⟩ := SubType.exists_encoding_iff.mpr (htypes type List.mem_cons_self)
      exact ⟨enc, .lone h⟩
  | true =>
    simp only [InRange, Bool.true_eq_false, false_implies, true_and,
      ← exists_vector_iff_fits SubType.exists_encoding_iff]
    constructor
    · rintro ⟨enc, h⟩
      cases h with
      | written h => exact ⟨_, h⟩
    · rintro ⟨enc, h⟩
      exact ⟨_, .written h⟩

/-! ## The space of declared types -/

/-- The number of types that some groups declare. -/
def declaredCount (groups : List RecGroup) : ℕ := (groups.map (·.types.length)).sum

/-- `t` is what `index` stands for: its group is the one of its ordinal, and all declarations of the
groups before are counted first. -/
structure TypeRef.IsAt (t : TypeRef) (groups : List RecGroup) (index : ℕ) : Prop where
  group : groups[t.ordinal]? = some t.group
  index : index = declaredCount (groups.take t.ordinal) + t.place

@[simp] theorem RecGroup.length_refs (g : RecGroup) (ordinal : ℕ) :
    (g.refs ordinal).length = g.types.length := by
  rw [refs, List.length_map, List.length_finRange]

theorem RecGroup.getElem?_refs {g : RecGroup} {ordinal index : ℕ} {t : TypeRef} :
    (g.refs ordinal)[index]? = some t ↔ t.ordinal = ordinal ∧ t.group = g ∧ index = t.place := by
  obtain ⟨ordinal', g', place⟩ := t
  simp only [refs, List.getElem?_map, Option.map_eq_some_iff, List.getElem?_eq_some_iff,
    List.getElem_finRange, List.length_finRange]
  constructor
  · rintro ⟨p, ⟨hp, rfl⟩, heq⟩
    cases heq
    exact ⟨rfl, rfl, rfl⟩
  · rintro ⟨rfl, rfl, rfl⟩
    exact ⟨place, ⟨place.isLt, rfl⟩, rfl⟩

/-- The groups may be counted from any ordinal; this is the induction behind `getElem?_indexSpace`,
in which the ordinal of the first group moves. -/
private theorem getElem?_flatMap_refs (groups : List RecGroup) (first index : ℕ) (t : TypeRef) :
    ((groups.zipIdx first).flatMap fun (g, ordinal) ↦ g.refs ordinal)[index]? = some t ↔
      ∃ before, t.ordinal = first + before ∧ groups[before]? = some t.group ∧
        index = declaredCount (groups.take before) + t.place := by
  induction groups generalizing first index with
  | nil => simp
  | cons g groups ih =>
    rw [List.zipIdx_cons, List.flatMap_cons, List.getElem?_append, RecGroup.length_refs]
    have hplace : (t.place : ℕ) < t.group.types.length := t.place.isLt
    -- Either the index lies in the first group, or it counts on from the second.
    by_cases hlt : index < g.types.length
    · rw [if_pos hlt, RecGroup.getElem?_refs]
      constructor
      · rintro ⟨ho, hg, hi⟩
        exact ⟨0, ho, congrArg some hg.symm, by simpa [declaredCount] using hi⟩
      · rintro ⟨before, ho, hg, hi⟩
        cases before with
        | zero =>
          simp only [List.getElem?_cons_zero, Option.some.injEq] at hg
          exact ⟨ho, hg.symm, by simpa [declaredCount] using hi⟩
        | succ before =>
          simp only [declaredCount, List.take_succ_cons, List.map_cons, List.sum_cons] at hi
          omega
    · rw [if_neg hlt, ih]
      constructor
      · rintro ⟨before, ho, hg, hi⟩
        refine ⟨before + 1, by omega, hg, ?_⟩
        simp only [declaredCount, List.take_succ_cons, List.map_cons, List.sum_cons] at hi ⊢
        omega
      · rintro ⟨before, ho, hg, hi⟩
        cases before with
        | zero =>
          simp only [List.getElem?_cons_zero, Option.some.injEq] at hg
          simp only [declaredCount, List.take_zero, List.map_nil, List.sum_nil, hg] at hi hlt
          omega
        | succ before =>
          refine ⟨before, by omega, hg, ?_⟩
          simp only [declaredCount, List.take_succ_cons, List.map_cons, List.sum_cons] at hi ⊢
          omega

/-- A look-up in the space finds what the index stands for. -/
theorem getElem?_indexSpace {groups : List RecGroup} {index : ℕ} {t : TypeRef} :
    (indexSpace groups)[index]? = some t ↔ t.IsAt groups index := by
  rw [indexSpace, getElem?_flatMap_refs]
  constructor
  · rintro ⟨before, ho, hg, hi⟩
    obtain rfl : t.ordinal = before := by omega
    exact ⟨hg, hi⟩
  · rintro ⟨hg, hi⟩
    exact ⟨t.ordinal, (Nat.zero_add _).symm, hg, hi⟩

/-- Each group, paired with the places of its members, in order. -/
theorem map_indexSpace (groups : List RecGroup) :
    ((indexSpace groups).map fun t ↦ (t.group, (t.place : ℕ))) =
      groups.flatMap fun g ↦ (List.range g.types.length).map fun place ↦ (g, place) := by
  have hrefs (g : RecGroup) (ordinal : ℕ) :
      ((g.refs ordinal).map fun t ↦ (t.group, (t.place : ℕ))) =
        (List.range g.types.length).map fun place ↦ (g, place) := by
    rw [RecGroup.refs, List.map_map, ← List.map_coe_finRange_eq_range, List.map_map]
    rfl
  calc ((indexSpace groups).map fun t ↦ (t.group, (t.place : ℕ)))
      = groups.zipIdx.flatMap fun (g, _) ↦
          (List.range g.types.length).map fun place ↦ (g, place) := by
        simp only [indexSpace, List.map_flatMap, hrefs]
    _ = groups.flatMap fun g ↦ (List.range g.types.length).map fun place ↦ (g, place) := by
        conv_rhs => rw [← List.zipIdx_map_fst 0 groups, List.flatMap_map]

theorem length_indexSpace (groups : List RecGroup) :
    (indexSpace groups).length = declaredCount groups := by
  have h := congrArg List.length (map_indexSpace groups)
  simpa [List.length_flatMap, declaredCount] using h

/-! ## Reading a type section -/

/-- How the content of a type section is written. -/
def Grammar.typeSection : Grammar (List RecGroup) := Grammar.vector RecGroup.Encoding

theorem reads_typeSection : Reads (vector RecGroup.decode) Grammar.typeSection :=
  reads_vector reads_recGroup

/-- **Reading a type section undoes writing one.** Exactly the groups in range can be written. From
each of their encodings, whatever comes behind it, the space of the groups is read and nothing more
is consumed; and what is consumed whenever a space is read is an encoding of groups with that space.
The space pairs each group with the places of its members. -/
theorem typeSpace_inverse :
    (∀ groups : List RecGroup, (∃ enc, Grammar.typeSection groups enc) ↔
      groups.length < 2 ^ 32 ∧ ∀ g ∈ groups, g.InRange) ∧
    (∀ (groups : List RecGroup) (enc rest : List UInt8) (offset : ℕ),
      Grammar.typeSection groups enc →
        EStateM.run (do return indexSpace (← vector RecGroup.decode)) ⟨offset, enc ++ rest⟩ =
          .ok (indexSpace groups) ⟨offset + enc.length, rest⟩) ∧
    (∀ (w w' : Window) (space : List TypeRef),
      EStateM.run (do return indexSpace (← vector RecGroup.decode)) w = .ok space w' →
        ∃ groups enc, Grammar.typeSection groups enc ∧ space = indexSpace groups ∧
          w.bytes = enc ++ w'.bytes ∧ w'.offset = w.offset + enc.length) ∧
    ∀ groups : List RecGroup, ((indexSpace groups).map fun t ↦ (t.group, (t.place : ℕ))) =
      groups.flatMap fun g ↦ (List.range g.types.length).map fun place ↦ (g, place) := by
  have hreads := reads_typeSection.bind_pure indexSpace
  refine ⟨fun groups ↦ exists_vector_iff_fits RecGroup.exists_encoding_iff, ?_, ?_,
    map_indexSpace⟩
  · intro groups enc rest offset h
    exact hreads.run ⟨groups, rfl, h⟩ offset rest
  · intro w w' space hrun
    obtain ⟨enc, ⟨groups, rfl, h⟩, hs⟩ := hreads.run_eq_ok.mp hrun
    exact ⟨groups, enc, h, rfl, hs⟩

/-- One written group whose count has two bytes: a struct that extends another type and holds a
mutable byte, and a function of a nullable reference in long form. -/
theorem typeSpace_inverse_one_group :
    let group : RecGroup := {
      types := [
        { composite := .struct [⟨.packed .i8, true⟩], isFinal := false, supertypes := [3] },
        { composite := .function ⟨[.reference ⟨true, .abstract .function⟩], []⟩ }]
      explicit := true }
    let enc : List UInt8 := [0x81, 0x00, 0x4E, 0x02, 0x50, 0x01, 0x03, 0x5F, 0x01, 0x78, 0x01,
      0x60, 0x01, 0x63, 0x70, 0x00]
    Grammar.typeSection [group] enc ∧
      EStateM.run (do return indexSpace (← vector RecGroup.decode)) ⟨10, enc ++ [0x02]⟩ =
        .ok (indexSpace [group]) ⟨26, [0x02]⟩ := by
  intro group enc
  have henc : Grammar.typeSection [group] enc := by
    have hrun : (vector RecGroup.decode).run ⟨0, enc⟩ = .ok [group] ⟨16, []⟩ := rfl
    obtain ⟨enc', h, hs, -⟩ := reads_typeSection.run_eq_ok.mp hrun
    have heq : enc = enc' := hs.trans (List.append_nil enc')
    rwa [heq]
  exact ⟨henc, typeSpace_inverse.2.1 [group] enc [0x02] 10 henc⟩

end CallGate.Wasm
