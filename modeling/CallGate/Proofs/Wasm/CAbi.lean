import CallGate.Proofs.Wasm.ImportScan

/-!
# Functions that C can call

Whether an import can be called like a C function is asked of the declaration it stands for, and
that declaration is found by its place in its group. `DeclaresCFunction` asks the same without
places, of the entry of the type section that the index falls into: no group was written there, and
the first declaration is final and a function with at most one result.

The two could differ where an entry without a written group had a second declaration, and then they
would. It is a property of the encoding that there is none (`IsModule.inRange`), so they agree on
the groups of modules (`isCAbi_iff_declaresCFunction`).

To require such functions changes nothing about what is returned, only about whether anything is:
`importsOf_cAbi`.
-/

namespace CallGate.Wasm

open Data

/-! ## Declarations by their index -/

/-- The index falls into an entry of the type section that is no written group, and whose first
declaration is final and a function with at most one result. -/
def DeclaresCFunction (groups : List RecGroup) (index : ℕ) : Prop :=
  ∃ before group after, groups = before ++ group :: after ∧
    declaredCount before ≤ index ∧ index < declaredCount before + group.types.length ∧
    group.explicit = false ∧
    ∃ first others type, group.types = first :: others ∧ first.isFinal = true ∧
      first.composite = .function type ∧ type.results.length ≤ 1

namespace TypeRef

variable {t t' : TypeRef} {groups : List RecGroup} {index : ℕ}

/-- An index stands for one declaration at most. -/
theorem IsAt.unique (h : t.IsAt groups index) (h' : t'.IsAt groups index) : t = t' := by
  rw [← getElem?_indexSpace] at h h'
  rw [h] at h'
  exact Option.some.inj h'

/-- The group of a declaration, between the groups before and after it. -/
theorem IsAt.exists_append (h : t.IsAt groups index) :
    ∃ before after, groups = before ++ t.group :: after ∧
      index = declaredCount before + t.place := by
  obtain ⟨hlt, hgroup⟩ := List.getElem?_eq_some_iff.mp h.group
  refine ⟨groups.take t.ordinal, groups.drop (t.ordinal + 1), ?_, h.index⟩
  rw [← hgroup, ← List.drop_eq_getElem_cons hlt, List.take_append_drop]

/-- Where an index falls into a group, it stands for a declaration of that group. -/
theorem exists_isAt {before : List RecGroup} {group : RecGroup} (after : List RecGroup)
    (hlow : declaredCount before ≤ index)
    (hhigh : index < declaredCount before + group.types.length) :
    ∃ t : TypeRef, t.group = group ∧ t.IsAt (before ++ group :: after) index := by
  have hplace : index - declaredCount before < group.types.length := by omega
  refine ⟨⟨before.length, group, ⟨_, hplace⟩⟩, rfl, ?_, ?_⟩
  · rw [List.getElem?_append_right le_rfl, Nat.sub_self, List.getElem?_cons_zero]
  · rw [List.take_left]
    exact (Nat.add_sub_of_le hlow).symm

/-- The only declaration of a group is its first one. -/
theorem subType_eq_first {first : SubType} {others : List SubType}
    (hone : t.group.types.length = 1) (htypes : t.group.types = first :: others) :
    t.subType = first := by
  have hfound : t.group.types[(t.place : ℕ)]? = some t.subType :=
    List.getElem?_eq_getElem t.place.isLt
  have hplace : (t.place : ℕ) = 0 := by
    have hlt := t.place.isLt
    omega
  rw [hplace, htypes, List.getElem?_cons_zero] at hfound
  exact (Option.some.inj hfound).symm

/-- The question as it is asked of a declaration. -/
theorem isCAbi_iff :
    t.isCAbi = true ↔ t.group.explicit = false ∧ t.subType.isFinal = true ∧
      ∃ type, t.subType.composite = .function type ∧ type.results.length ≤ 1 := by
  rw [isCAbi, Bool.and_eq_true, Bool.and_eq_true, Bool.not_eq_true', and_assoc, SubType.function?]
  cases t.subType.composite with
  | function type => simp
  | struct fields => simp
  | array element => simp

end TypeRef

/-! ## Groups of a module -/

/-- The groups of a module could be written, as they have been. -/
theorem IsModule.inRange {bytes : List UInt8} {frames : List Frame} {groups : List RecGroup}
    {entries : List ImportEntry} (h : IsModule bytes frames groups entries) :
    ∀ g ∈ groups, g.InRange := by
  by_cases hne : ∀ f ∈ frames, f.id ≠ 1
  · rw [h.types.2 hne]
    exact List.forall_mem_nil _
  · push Not at hne
    obtain ⟨f, hf, hid⟩ := hne
    have hwritten : ∃ enc, Grammar.typeSection groups enc := ⟨f.payload, h.types.1 f hf hid⟩
    exact ((exists_vector_iff_fits RecGroup.exists_encoding_iff).mp hwritten).2

/-- **The place does not matter.** Of the groups that can be written, asking the declaration behind
an index comes to the same as asking the first one of its entry. -/
theorem isCAbi_iff_declaresCFunction {groups : List RecGroup} (hgroups : ∀ g ∈ groups, g.InRange)
    {t : TypeRef} {index : ℕ} (ht : t.IsAt groups index) :
    t.isCAbi = true ↔ DeclaresCFunction groups index := by
  have hone : t.group.explicit = false → t.group.types.length = 1 :=
    (hgroups t.group (List.mem_of_getElem? ht.group)).1
  rw [TypeRef.isCAbi_iff]
  constructor
  · rintro ⟨hexplicit, hfinal, type, htype, hresults⟩
    obtain ⟨before, after, rfl, hindex⟩ := ht.exists_append
    obtain ⟨first, htypes⟩ := List.length_eq_one_iff.mp (hone hexplicit)
    have hplace := t.place.isLt
    rw [TypeRef.subType_eq_first (hone hexplicit) htypes] at hfinal htype
    exact ⟨before, t.group, after, rfl, by omega, by omega, hexplicit, first, [], type, htypes,
      hfinal, htype, hresults⟩
  · rintro ⟨before, group, after, rfl, hlow, hhigh, hexplicit, first, others, type, htypes, hfinal,
      htype, hresults⟩
    obtain ⟨t', rfl, ht'⟩ := TypeRef.exists_isAt after hlow hhigh
    obtain rfl := ht.unique ht'
    rw [TypeRef.subType_eq_first (hone hexplicit) htypes]
    exact ⟨hexplicit, hfinal, type, htype, hresults⟩

/-! ## The scan with the requirement -/

/-- What an import resolves to has a signature. -/
theorem ImportEntry.Resolves.exists_signature {groups : List RecGroup} {e : ImportEntry}
    {i : Import} (h : e.Resolves groups i) : ∃ type, i.signature = .ok type := by
  obtain ⟨type, htype⟩ := h.function
  refine ⟨type, ?_⟩
  have hfunction : i.type.subType.function? = some type := by
    rw [SubType.function?, show i.type.subType.composite = .function type from htype]
  rw [Import.signature, TypeRef.signature, hfunction]

/-- A requirement on the outcomes of steps can be checked afterwards. -/
theorem forall₂_and_right {α β : Type} {R : α → β → Prop} {P : β → Prop} {as : List α}
    {bs : List β} :
    List.Forall₂ (fun a b ↦ R a b ∧ P b) as bs ↔ List.Forall₂ R as bs ∧ ∀ b ∈ bs, P b := by
  induction bs generalizing as with
  | nil => simp
  | cons b bs ih =>
    simp only [List.forall₂_cons_right_iff, ih, List.forall_mem_cons]
    constructor
    · rintro ⟨a, as, ⟨ha, hb⟩, ⟨has, hbs⟩, rfl⟩
      exact ⟨⟨a, as, ha, has, rfl⟩, hb, hbs⟩
    · rintro ⟨⟨a, as, ha, has, rfl⟩, hb, hbs⟩
      exact ⟨a, as, ⟨ha, hb⟩, ⟨has, hbs⟩, rfl⟩

/-- **The requirement can be checked afterwards.** With it, the scan returns what it returns without
it, if all of that can be called like a C function, and fails otherwise. What is returned either way
points to a declaration inside its group, which is the one that its index stands for and has a
signature; and it can be called like a C function if and only if the entry of the type section that
the index falls into is a single declaration, written without a group, that is final and a function
with at most one result. -/
theorem importsOf_cAbi (bytes : List UInt8) :
    (∀ imports, importsOf bytes true = .ok imports ↔
      importsOf bytes = .ok imports ∧ ∀ i ∈ imports, i.isCAbi = true) ∧
    ∀ requireCAbi imports, importsOf bytes requireCAbi = .ok imports →
      ∃ frames groups entries, IsModule bytes frames groups entries ∧
        ∀ i ∈ imports, (i.type.place : ℕ) < i.type.group.types.length ∧
          i.type.IsAt groups i.typeIndex ∧ (∃ type, i.signature = .ok type) ∧
          (i.isCAbi = true ↔ DeclaresCFunction groups i.typeIndex) := by
  constructor
  · intro imports
    have hplain := importsOf_iff_isModule bytes imports
    rw [importsOf_eq_ok, hplain]
    simp only [true_implies, forall₂_and_right]
    constructor
    · rintro ⟨frames, groups, entries, hmodule, himports, hcabi⟩
      exact ⟨⟨frames, groups, entries, hmodule, himports⟩, hcabi⟩
    · rintro ⟨⟨frames, groups, entries, hmodule, himports⟩, hcabi⟩
      exact ⟨frames, groups, entries, hmodule, himports, hcabi⟩
  · intro requireCAbi imports h
    obtain ⟨frames, groups, entries, hmodule, himports⟩ := importsOf_eq_ok.mp h
    refine ⟨frames, groups, entries, hmodule, fun i hi ↦ ?_⟩
    obtain ⟨e, -, hresolves, -⟩ := exists_of_mem_forall₂ himports hi
    have hat : i.type.IsAt groups i.typeIndex := by
      rw [hresolves.typeIndex]
      exact hresolves.designated
    exact ⟨i.type.place.isLt, hat, hresolves.exists_signature,
      isCAbi_iff_declaresCFunction hmodule.inRange hat⟩

/-- Two imports of the same signature. One type is declared in a written group of its own, the other
without a group, and only the second one is for C. -/
theorem importsOf_cAbi_written_group :
    let bytes := magic ++ version ++
      [0x01, 0x09, 0x02, 0x4E, 0x01, 0x60, 0x00, 0x00, 0x60, 0x00, 0x00,
        0x02, 0x0D, 0x02, 0x01, 0x61, 0x01, 0x62, 0x00, 0x00, 0x01, 0x61, 0x01, 0x63, 0x00, 0x01]
    ∃ imports frames groups entries, importsOf bytes = .ok imports ∧
      importsOf bytes true ≠ .ok imports ∧ IsModule bytes frames groups entries ∧
      ¬ DeclaresCFunction groups 0 ∧ DeclaresCFunction groups 1 := by
  intro bytes
  let written : RecGroup := { types := [{ composite := .function ⟨[], []⟩ }], explicit := true }
  let lone : RecGroup := { types := [{ composite := .function ⟨[], []⟩ }], explicit := false }
  let b : Import := ⟨"a", "b", 0, ⟨0, written, ⟨0, by decide⟩⟩⟩
  let c : Import := ⟨"a", "c", 1, ⟨1, lone, ⟨0, by decide⟩⟩⟩
  have hscan : importsOf bytes false = .ok [b, c] := by decide +kernel
  obtain ⟨hrequired, hplain⟩ := importsOf_cAbi bytes
  obtain ⟨frames, groups, entries, hmodule, himports⟩ := hplain false [b, c] hscan
  obtain ⟨-, -, -, hb⟩ := himports b (by simp)
  obtain ⟨-, -, -, hc⟩ := himports c (by simp)
  have hbCAbi : b.isCAbi = false := by decide
  have hcCAbi : c.isCAbi = true := by decide
  refine ⟨[b, c], frames, groups, entries, hscan, ?_, hmodule, ?_, hc.mp hcCAbi⟩
  · intro h
    have hall := ((hrequired [b, c]).mp h).2 b (by simp)
    rw [hbCAbi] at hall
    cases hall
  · intro h
    rw [← hb, hbCAbi] at h
    cases h

end CallGate.Wasm
