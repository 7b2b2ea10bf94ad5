import CallGate.Proofs.Wasm.ModuleGrammar

/-!
# The scan of a module

`IsModule` states of some bytes as a whole what the scan finds out step by step: how they are framed
into sections, that the sections keep to their order, which groups the type section declares and
which entries the import section holds. `ImportEntry.Resolves` states what an entry stands for once
all groups are known.

The scan succeeds exactly on the modules of this grammar whose imports resolve, and it returns what
they resolve to (`importsOf_eq_ok`). Where it fails, it does so with the declarations or with the
first entry that does not resolve (`importsOf_eq_error`). Nothing of a module is left open by its
bytes (`IsModule.unique`), so that one may speak of the entries of a module, and bytes that are none
may still hold entries (`HoldsEntry`).
-/

namespace CallGate.Wasm

open Decoder Data

/-! ## Modules -/

/-- Some bytes are a module with these sections, groups and import entries. -/
structure IsModule (bytes : List UInt8) (frames : List Frame) (groups : List RecGroup)
    (entries : List ImportEntry) : Prop where
  /-- Behind the header there are framed sections and nothing else. -/
  framed : ∃ body, bytes = [0x00, 0x61, 0x73, 0x6D] ++ ([0x01, 0x00, 0x00, 0x00] ++ body) ∧
    Grammar.items Frame.Encoding frames body
  /-- Custom sections begin with a name. -/
  named : ∀ f ∈ frames, f.id = 0 → BeginsWithName f.payload
  /-- All other sections are of a kind that has a place in the order. -/
  known : ∀ id ∈ orderedIds frames, id ∈ sectionOrder
  /-- Their places increase. -/
  increasing : (orderedIds frames).Pairwise fun a b ↦
    sectionOrder.idxOf a < sectionOrder.idxOf b
  /-- The type section is one vector of groups; without it there are none. -/
  types : SectionSays 1 Grammar.typeSection [] frames groups
  /-- The import section is one vector of entries; without it there are none. -/
  imports : SectionSays 2 Grammar.importSection [] frames entries

/-- Behind the header there are only the sections. -/
theorem ofBytes_header (body : List UInt8) :
    Declarations.ofBytes (magic ++ (version ++ body)) = Declarations.addAll {} ⟨8, body⟩ := by
  have hlen : ¬ body.length + 1 + 1 + 1 + 1 + 1 + 1 + 1 + 1 < 8 := by omega
  simp [Declarations.ofBytes, magic, version, hlen]

/-- Bytes without the header are malformed. -/
theorem exists_body_or_malformed (bytes : List UInt8) :
    (∃ body, bytes = magic ++ (version ++ body)) ∨
      ∃ offset fault, Declarations.ofBytes bytes = .error (.malformed offset fault) := by
  unfold Declarations.ofBytes
  split
  · exact .inr ⟨_, _, rfl⟩
  · next hmagic =>
    split
    · exact .inr ⟨_, _, rfl⟩
    · next hversion =>
      rw [not_or, not_not] at hmagic
      rw [not_not] at hversion
      refine .inl ⟨bytes.drop 8, ?_⟩
      calc bytes = bytes.take 4 ++ ((bytes.drop 4).take 4 ++ (bytes.drop 4).drop 4) := by
            rw [List.take_append_drop, List.take_append_drop]
        _ = magic ++ (version ++ bytes.drop 8) := by
            rw [hmagic.2, hversion, List.drop_drop]

theorem ofBytes_eq_ok {bytes : List UInt8} {d : Declarations} :
    Declarations.ofBytes bytes = .ok d ↔
      ∃ body, bytes = [0x00, 0x61, 0x73, 0x6D] ++ ([0x01, 0x00, 0x00, 0x00] ++ body) ∧
        Declarations.addAll {} ⟨8, body⟩ = .ok d := by
  constructor
  · intro h
    rcases exists_body_or_malformed bytes with ⟨body, rfl⟩ | ⟨offset, fault, hmalformed⟩
    · exact ⟨body, rfl, (ofBytes_header body).symm.trans h⟩
    · rw [hmalformed] at h
      cases h
  · rintro ⟨body, rfl, h⟩
    exact (ofBytes_header body).trans h

/-- The declarations of a module are its groups and its import entries. -/
theorem ofBytes_eq_ok_iff_isModule {bytes : List UInt8} {groups : List RecGroup}
    {entries : List ImportEntry} :
    (∃ rank, Declarations.ofBytes bytes = .ok ⟨rank, groups, entries⟩) ↔
      ∃ frames, IsModule bytes frames groups entries := by
  simp only [ofBytes_eq_ok, addAll_eq_ok]
  constructor
  · rintro ⟨rank, body, hbytes, frames, hframes, hd⟩
    obtain ⟨hnamed, hordered, htypes, himports⟩ := Declarations.takesAll_iff.mp ⟨rank, hd⟩
    exact ⟨frames, ⟨body, hbytes, hframes⟩, hnamed, fun id hid ↦ (hordered.1 id hid).1,
      hordered.2, htypes, himports⟩
  · rintro ⟨frames, ⟨body, hbytes, hframes⟩, hnamed, hknown, hincreasing, htypes, himports⟩
    have hordered : Ordered 0 frames :=
      ⟨fun id hid ↦ ⟨hknown id hid, Nat.zero_le _⟩, hincreasing⟩
    have hd : Declarations.Expects {} frames groups entries :=
      ⟨hnamed, hordered, htypes, himports⟩
    obtain ⟨rank, hd⟩ := Declarations.takesAll_iff.mpr hd
    exact ⟨rank, body, hbytes, frames, hframes, hd⟩

/-! ## Nothing is left open -/

theorem sectionSays_unique {α : Type} {d : Decoder α} {G : Grammar α} (h : Reads d G) {id : UInt8}
    {before a b : α} {frames : List Frame} (ha : SectionSays id G before frames a)
    (hb : SectionSays id G before frames b) : a = b := by
  by_cases hne : ∀ f ∈ frames, f.id ≠ id
  · rw [ha.2 hne, hb.2 hne]
  · push Not at hne
    obtain ⟨f, hf, hid⟩ := hne
    exact (h.unique (ha.1 f hf hid) (hb.1 f hf hid) (rfl : f.payload ++ [] = _)).1

/-- Two ways to see some bytes as a module are the same. -/
theorem IsModule.unique {bytes : List UInt8} {frames₁ frames₂ : List Frame}
    {groups₁ groups₂ : List RecGroup} {entries₁ entries₂ : List ImportEntry}
    (h₁ : IsModule bytes frames₁ groups₁ entries₁) (h₂ : IsModule bytes frames₂ groups₂ entries₂) :
    frames₁ = frames₂ ∧ groups₁ = groups₂ ∧ entries₁ = entries₂ := by
  obtain ⟨body₁, hbytes₁, hframes₁⟩ := h₁.framed
  obtain ⟨body₂, hbytes₂, hframes₂⟩ := h₂.framed
  obtain rfl : body₁ = body₂ :=
    List.append_cancel_left (List.append_cancel_left (hbytes₁.symm.trans hbytes₂))
  obtain rfl := reads_frame.items_unique Frame.visible_encoding hframes₁ hframes₂
  exact ⟨rfl, sectionSays_unique reads_typeSection h₁.types h₂.types,
    sectionSays_unique reads_importSection h₁.imports h₂.imports⟩

/-! ## Entries of any bytes -/

/-- Some bytes, be they a module or not, hold an entry in an import section: behind the header there
are framed sections up to an import section, and its content begins with a count and some entries,
of which this one is the last. What comes behind it, in the section and behind the section, is left
open. -/
inductive HoldsEntry (e : ImportEntry) : List UInt8 → Prop
  | mk {header count written more framed rest : List UInt8} {n : ℕ} {entries : List ImportEntry}
      {frames : List Frame} (hheader : header.length = 8) (hcount : Grammar.u32 n count)
      (hentries : Grammar.items ImportEntry.Encoding (entries ++ [e]) written)
      (hframes :
        Grammar.items Frame.Encoding (frames ++ [⟨2, count ++ (written ++ more)⟩]) framed) :
      HoldsEntry e (header ++ (framed ++ rest))

/-- What a module holds are its entries, wherever they stand. -/
theorem IsModule.holdsEntry_iff {bytes : List UInt8} {frames : List Frame} {groups : List RecGroup}
    {entries : List ImportEntry} (h : IsModule bytes frames groups entries) {e : ImportEntry} :
    HoldsEntry e bytes ↔ e ∈ entries := by
  obtain ⟨body, rfl, hbody⟩ := h.framed
  constructor
  · intro he
    generalize hbytes : ([0x00, 0x61, 0x73, 0x6D] : List UInt8) ++ _ = bytes at he
    cases he with
    | mk hheader hcount hentries hframes =>
      rw [← List.append_assoc] at hbytes
      obtain ⟨-, rfl⟩ := List.append_inj hbytes hheader.symm
      -- The sections before it, then the entries before it, have one reading only.
      obtain ⟨others, rfl, -⟩ := reads_frame.items_of_begins Frame.visible_encoding hframes hbody
      have hsection := h.imports.1 _ (List.mem_append_left others List.mem_concat_self) rfl
      obtain ⟨count', body', hcount', hbody', heq⟩ := hsection
      obtain ⟨-, -, rfl⟩ := reads_u32.unique hcount hcount' heq
      obtain ⟨more, rfl, -⟩ :=
        reads_importEntry.items_of_begins ImportEntry.visible_encoding hentries hbody'
      simp
  · intro he
    obtain ⟨f, hf, hid⟩ : ∃ f ∈ frames, f.id = 2 := by
      by_contra hne
      push Not at hne
      rw [h.imports.2 hne] at he
      exact List.not_mem_nil he
    obtain ⟨before, after, rfl⟩ := List.append_of_mem hf
    obtain ⟨count, body', hcount, hbody', hpayload⟩ := h.imports.1 f hf hid
    obtain ⟨before', after', rfl⟩ := List.append_of_mem he
    rw [List.append_cons] at hbody hbody'
    obtain ⟨framed, rest, hframed, -, rfl⟩ := Grammar.items_append.mp hbody
    obtain ⟨written, more, hwritten, -, rfl⟩ := Grammar.items_append.mp hbody'
    obtain rfl : f = ⟨2, count ++ (written ++ more)⟩ := by rw [← hid, ← hpayload]
    rw [← List.append_assoc]
    exact .mk rfl hcount hwritten hframed

/-! ## Resolving imports -/

/-- `i` is what an entry stands for: its names and its index, and the declaration of a function
behind the index. -/
structure ImportEntry.Resolves (groups : List RecGroup) (e : ImportEntry) (i : Import) : Prop where
  module : i.module = e.module
  name : i.name = e.name
  typeIndex : i.typeIndex = e.typeIndex
  /-- The index is one of a declaration. -/
  declared : e.typeIndex < declaredCount groups
  /-- The declaration is the one that the index stands for. -/
  designated : i.type.IsAt groups e.typeIndex
  /-- It declares a function. -/
  function : ∃ type, i.subType.composite = .function type

theorem SubType.isFunction_iff {t : SubType} :
    t.isFunction = true ↔ ∃ type, t.composite = .function type := by
  obtain ⟨composite, isFinal, supertypes⟩ := t
  cases composite <;> simp [isFunction, function?]

/-- Resolving is one look-up and two questions about what is found. -/
theorem resolve_eq_ok_iff_getElem? {space : List TypeRef} {requireCAbi : Bool} {e : ImportEntry}
    {i : Import} :
    e.resolve space requireCAbi = .ok i ↔
      ∃ type, space[e.typeIndex]? = some type ∧ i = ⟨e.module, e.name, e.typeIndex, type⟩ ∧
        i.subType.isFunction = true ∧ (requireCAbi = true → i.isCAbi = true) := by
  unfold ImportEntry.resolve
  cases hspace : space[e.typeIndex]? with
  | none => simp
  | some type =>
    simp only [Option.some.injEq, exists_eq_left']
    split
    · next hfunction =>
      simp only [reduceCtorEq, false_iff, not_and]
      rintro rfl hsub
      simp [hsub] at hfunction
    · next hfunction =>
      split
      · next hcabi =>
        simp only [reduceCtorEq, false_iff, not_and]
        rintro rfl - h
        simp only [Bool.and_eq_true, Bool.not_eq_true'] at hcabi
        simp [h hcabi.1] at hcabi
      · next hcabi =>
        rw [Except.ok.injEq]
        constructor
        · rintro rfl
          exact ⟨rfl, by simpa using hfunction, fun hrequire ↦ by simpa [hrequire] using hcabi⟩
        · rintro ⟨rfl, -⟩
          rfl

theorem resolve_eq_ok {groups : List RecGroup} {requireCAbi : Bool} {e : ImportEntry}
    {i : Import} :
    e.resolve (indexSpace groups) requireCAbi = .ok i ↔
      e.Resolves groups i ∧ (requireCAbi = true → i.isCAbi = true) := by
  rw [resolve_eq_ok_iff_getElem?]
  constructor
  · rintro ⟨type, htype, rfl, hfunction, hcabi⟩
    have hlt : e.typeIndex < declaredCount groups := by
      rw [← length_indexSpace]
      exact (List.getElem?_eq_some_iff.mp htype).1
    exact ⟨⟨rfl, rfl, rfl, hlt, getElem?_indexSpace.mp htype, SubType.isFunction_iff.mp hfunction⟩,
      hcabi⟩
  · rintro ⟨h, hcabi⟩
    refine ⟨i.type, getElem?_indexSpace.mpr h.designated, ?_, SubType.isFunction_iff.mpr h.function,
      hcabi⟩
    rw [← h.module, ← h.name, ← h.typeIndex]

/-- The index is that of a declared function type. -/
def DeclaresFunction (groups : List RecGroup) (index : ℕ) : Prop :=
  ∃ t : TypeRef, t.IsAt groups index ∧ ∃ type, t.subType.composite = .function type

theorem exists_resolves_iff {groups : List RecGroup} {e : ImportEntry} :
    (∃ i, e.Resolves groups i) ↔ DeclaresFunction groups e.typeIndex := by
  constructor
  · rintro ⟨i, h⟩
    exact ⟨i.type, h.designated, h.function⟩
  · rintro ⟨t, ht, hfunction⟩
    have hlt : e.typeIndex < declaredCount groups := by
      rw [← length_indexSpace]
      exact (List.getElem?_eq_some_iff.mp (getElem?_indexSpace.mpr ht)).1
    exact ⟨⟨e.module, e.name, e.typeIndex, t⟩, rfl, rfl, rfl, hlt, ht, hfunction⟩

/-- What is wrong with an entry whose index is that of a declaration: the declaration is none of a
function, or it is one that cannot be called like a C function, where that was asked for. -/
inductive ImportEntry.Misfits (groups : List RecGroup) (requireCAbi : Bool) (e : ImportEntry) :
    Fault → Prop
  | notFunction {t : TypeRef} (designated : t.IsAt groups e.typeIndex)
      (hfunction : t.subType.isFunction = false) :
      Misfits groups requireCAbi e (.notFunctionType e.module e.name e.typeIndex)
  | notCAbi {t : TypeRef} (designated : t.IsAt groups e.typeIndex)
      (hfunction : t.subType.isFunction = true) (hrequire : requireCAbi = true)
      (hcabi : t.isCAbi = false) : Misfits groups requireCAbi e (.notCAbi e.module e.name)

/-- The ways in which an import may fail to resolve, each with its error. -/
theorem resolve_eq_error {groups : List RecGroup} {requireCAbi : Bool} {e : ImportEntry}
    {err : ScanError} :
    e.resolve (indexSpace groups) requireCAbi = .error err ↔
      declaredCount groups ≤ e.typeIndex ∧ err = .unresolvedType e.module e.name e.typeIndex ∨
        ∃ fault, e.Misfits groups requireCAbi fault ∧ err = .malformed 0 fault := by
  unfold ImportEntry.resolve
  cases hspace : (indexSpace groups)[e.typeIndex]? with
  | none =>
    have hout : declaredCount groups ≤ e.typeIndex := by
      rw [← length_indexSpace]
      exact List.getElem?_eq_none_iff.mp hspace
    have hnone (t : TypeRef) : ¬ t.IsAt groups e.typeIndex := by
      rw [← getElem?_indexSpace, hspace]
      nofun
    constructor
    · intro h
      exact .inl ⟨hout, (Except.error.inj h).symm⟩
    · rintro (⟨-, rfl⟩ | ⟨fault, ⟨ht, -⟩ | ⟨ht, -⟩, -⟩)
      · rfl
      · exact absurd ht (hnone _)
      · exact absurd ht (hnone _)
  | some type =>
    have hin : ¬ declaredCount groups ≤ e.typeIndex := by
      rw [← length_indexSpace, Nat.not_le]
      exact (List.getElem?_eq_some_iff.mp hspace).1
    have htype : type.IsAt groups e.typeIndex := getElem?_indexSpace.mp hspace
    have hone {t : TypeRef} (ht : t.IsAt groups e.typeIndex) : type = t := by
      rw [← getElem?_indexSpace, hspace] at ht
      exact Option.some.inj ht
    change (if !type.subType.isFunction then _ else if requireCAbi && !type.isCAbi then _ else _)
      = Except.error err ↔ _
    constructor
    · intro h
      refine .inr ?_
      split at h
      · next hfunction =>
        exact ⟨_, .notFunction htype (by simpa using hfunction), (Except.error.inj h).symm⟩
      · next hfunction =>
        split at h
        · next hcabi =>
          rw [Bool.and_eq_true, Bool.not_eq_true'] at hcabi
          exact ⟨_, .notCAbi htype (by simpa using hfunction) hcabi.1 hcabi.2,
            (Except.error.inj h).symm⟩
        · cases h
    · rintro (⟨hout, -⟩ | ⟨fault, ⟨ht, hfunction⟩ | ⟨ht, hfunction, hrequire, hcabi⟩, rfl⟩)
      · exact absurd hout hin
      · rw [hone ht, hfunction]
        rfl
      · rw [hone ht, hfunction, hrequire, hcabi]
        rfl

/-- The scan succeeds on the modules all of whose entries resolve, and where it is asked for, to
functions that can be called like C functions. -/
theorem importsOf_eq_ok {bytes : List UInt8} {requireCAbi : Bool} {imports : List Import} :
    importsOf bytes requireCAbi = .ok imports ↔
      ∃ frames groups entries, IsModule bytes frames groups entries ∧
        List.Forall₂ (fun e i ↦ e.Resolves groups i ∧ (requireCAbi = true → i.isCAbi = true))
          entries imports := by
  simp only [importsOf, Data.bind_eq_ok, mapM_eq_ok, resolve_eq_ok]
  constructor
  · rintro ⟨⟨rank, groups, entries⟩, hd, himports⟩
    obtain ⟨frames, hmodule⟩ := ofBytes_eq_ok_iff_isModule.mp ⟨rank, hd⟩
    exact ⟨frames, groups, entries, hmodule, himports⟩
  · rintro ⟨frames, groups, entries, hmodule, himports⟩
    obtain ⟨rank, hd⟩ := ofBytes_eq_ok_iff_isModule.mpr ⟨frames, hmodule⟩
    exact ⟨_, hd, himports⟩

/-- Otherwise it fails with the declarations or, in a module, with the first entry that does not
resolve. -/
theorem importsOf_eq_error {bytes : List UInt8} {requireCAbi : Bool} {err : ScanError} :
    importsOf bytes requireCAbi = .error err ↔
      Declarations.ofBytes bytes = .error err ∨
        ∃ frames groups before e after, IsModule bytes frames groups (before ++ e :: after) ∧
          (∀ b ∈ before, ∃ i : Import, b.Resolves groups i ∧
            (requireCAbi = true → i.isCAbi = true)) ∧
          e.resolve (indexSpace groups) requireCAbi = .error err := by
  simp only [importsOf, Data.bind_eq_error, mapM_eq_error, resolve_eq_ok]
  constructor
  · rintro (h | ⟨⟨rank, groups, _⟩, hd, before, e, after, rfl, hbefore, he⟩)
    · exact .inl h
    · obtain ⟨frames, hmodule⟩ := ofBytes_eq_ok_iff_isModule.mp ⟨rank, hd⟩
      exact .inr ⟨frames, groups, before, e, after, hmodule, hbefore, he⟩
  · rintro (h | ⟨frames, groups, before, e, after, hmodule, hbefore, he⟩)
    · exact .inl h
    · obtain ⟨rank, hd⟩ := ofBytes_eq_ok_iff_isModule.mpr ⟨frames, hmodule⟩
      exact .inr ⟨_, hd, before, e, after, rfl, hbefore, he⟩

/-- **The scan accepts exactly its grammar.** It returns imports if and only if the bytes are a
module whose entries, in order, resolve to these imports. -/
theorem importsOf_iff_isModule (bytes : List UInt8) (imports : List Import) :
    importsOf bytes = .ok imports ↔
      ∃ frames groups entries, IsModule bytes frames groups entries ∧
        List.Forall₂ (ImportEntry.Resolves groups) entries imports := by
  simp only [importsOf_eq_ok, Bool.false_eq_true, false_implies, and_true]

end CallGate.Wasm
