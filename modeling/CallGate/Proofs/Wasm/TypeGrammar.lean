import CallGate.Proofs.Wasm.Counted
import CallGate.Wasm.Import

/-!
# The grammar of types

How the declarations of a type section are written, one relation for each kind of type, and that
each decoder reads its relation. The relations are stated with the bytes of the format, from the
value to the bytes; the decoders go the other way and choose by the first byte. That they agree is
therefore also the statement that the alternatives never overlap: a value type never looks like the
start of an index, nor a declaration without marker like a marker.

Several encodings of one type are admitted where the format has them: a nullable reference to a
named heap type in its short and its long form, a final declaration without supertypes with and
without marker, and every integer with or without padding.
-/

namespace CallGate.Wasm

open Decoder

/-! ## Bytes of leaves -/

theorem NumType.ofByte?_eq_some {b : UInt8} {type : NumType} :
    NumType.ofByte? b = some type ↔ b = type.byte := by
  constructor
  · intro h
    unfold NumType.ofByte? at h
    split at h <;> cases h <;> rfl
  · rintro rfl
    cases type <;> rfl

theorem PackedType.ofByte?_eq_some {b : UInt8} {type : PackedType} :
    PackedType.ofByte? b = some type ↔ b = type.byte := by
  constructor
  · intro h
    unfold PackedType.ofByte? at h
    split at h <;> cases h <;> rfl
  · rintro rfl
    cases type <;> rfl

theorem AbstractHeap.ofByte?_eq_some {b : UInt8} {heap : AbstractHeap} :
    AbstractHeap.ofByte? b = some heap ↔ b = heap.byte := by
  constructor
  · intro h
    unfold AbstractHeap.ofByte? at h
    split at h <;> cases h <;> rfl
  · rintro rfl
    cases heap <;> rfl

@[simp] theorem NumType.ofByte?_byte (type : NumType) : NumType.ofByte? type.byte = some type :=
  NumType.ofByte?_eq_some.mpr rfl

@[simp] theorem PackedType.ofByte?_byte (type : PackedType) :
    PackedType.ofByte? type.byte = some type := PackedType.ofByte?_eq_some.mpr rfl

@[simp] theorem AbstractHeap.ofByte?_byte (heap : AbstractHeap) :
    AbstractHeap.ofByte? heap.byte = some heap := AbstractHeap.ofByte?_eq_some.mpr rfl

@[simp] theorem NumType.ofByte?_heapByte (heap : AbstractHeap) :
    NumType.ofByte? heap.byte = none := by
  cases heap <;> rfl

/-- The bytes of named heap types are those of small negative numbers, so none begins an index. -/
theorem AbstractHeap.byte_range (heap : AbstractHeap) : 0x40 ≤ heap.byte ∧ heap.byte < 0x80 := by
  cases heap <;> decide

/-! ## Heap types -/

/-- How a heap type is written. -/
inductive HeapType.Encoding : HeapType → List UInt8 → Prop
  | abstract (heap : AbstractHeap) : Encoding (.abstract heap) [heap.byte]
  | declared {index : ℕ} {enc : List UInt8} (h : Grammar.s33 index enc) :
      Encoding (.declared index) enc

theorem HeapType.visible_encoding : Grammar.Visible HeapType.Encoding := by
  intro heap h
  cases h with
  | declared h => exact Grammar.visible_s33 _ h

/-- An integer that begins with a byte between `0x40` and `0x7F` ends with it and is negative. -/
theorem Grammar.s33_neg_of_first {n : ℤ} {b : UInt8} {enc : List UInt8}
    (h : Grammar.s33 n (b :: enc)) (hlow : 0x40 ≤ b) (hhigh : b < 0x80) : n < 0 := by
  obtain ⟨hframe, hn, -, -⟩ := h
  rcases Grammar.leb128_cons.mp hframe with ⟨-, rfl⟩ | ⟨hb, -⟩
  · rw [UInt8.le_iff_toNat_le] at hlow
    rw [UInt8.lt_iff_toNat_lt] at hhigh
    have hsign : (([b] : List UInt8).getLastD 0).toNat.testBit 6 = true := by
      rw [Nat.testBit_eq_decide_div_mod_eq]
      simp at hlow hhigh ⊢
      omega
    rw [if_pos hsign, Grammar.sevenBits, List.map_singleton, Nat.ofDigits_singleton] at hn
    simp at hn hhigh
    omega
  · exact absurd hhigh (UInt8.not_lt.mpr hb)

/-- An index is a signed integer that happens not to be negative. -/
theorem reads_heapIndex : Reads (do
      let start ← position
      let index ← s33
      if index < 0 then failAt start (.heapType index) else return .declared index.toNat)
    fun (a : HeapType) enc ↦ ∃ index : ℕ, a = .declared index ∧ Grammar.s33 index enc := by
  have hsign (start : ℕ) (n : ℤ) :
      Reads (if n < 0 then failAt start (.heapType n)
        else pure (HeapType.declared n.toNat) : Decoder HeapType)
        fun a enc ↦ 0 ≤ n ∧ a = .declared n.toNat ∧ enc = [] := by
    by_cases hn : n < 0
    · rw [if_pos hn]
      exact (reads_failAt start _).congr fun a enc ↦ by simp [hn]
    · rw [if_neg hn]
      exact (reads_pure _).congr fun a enc ↦ by simp [Int.not_lt.mp hn]
  refine (reads_position_bind fun start ↦ reads_s33.bind fun n ↦ hsign start n).congr
    fun a enc ↦ ?_
  constructor
  · rintro ⟨n, e₁, e₂, hs, ⟨hn, rfl, rfl⟩, rfl⟩
    refine ⟨n.toNat, rfl, ?_⟩
    rwa [Int.toNat_of_nonneg hn, List.append_nil]
  · rintro ⟨index, rfl, hs⟩
    exact ⟨index, enc, [], hs, ⟨Int.natCast_nonneg index, rfl, rfl⟩, by simp⟩

theorem reads_heapType : Reads HeapType.decode HeapType.Encoding := by
  refine reads_peek_bind HeapType.visible_encoding fun b ↦ ?_
  cases hb : AbstractHeap.ofByte? b with
  | some heap =>
    refine readsAt_byte_bind ((reads_pure (HeapType.abstract heap)).congr fun a enc ↦ ?_)
    constructor
    · rintro ⟨rfl, rfl⟩
      obtain rfl := AbstractHeap.ofByte?_eq_some.mp hb
      exact .abstract heap
    · intro h
      cases h with
      | abstract heap' => simpa [eq_comm] using hb
      | declared h =>
        -- An index could only begin like this if it were negative.
        obtain rfl := AbstractHeap.ofByte?_eq_some.mp hb
        have hneg := Grammar.s33_neg_of_first h heap.byte_range.1 heap.byte_range.2
        omega
  | none =>
    refine reads_heapIndex.readsAt ?_ fun a enc ↦ ?_
    · rintro a ⟨index, -, hs⟩
      exact Grammar.visible_s33 _ hs
    · constructor
      · rintro ⟨index, rfl, hs⟩
        exact .declared hs
      · intro h
        cases h with
        | abstract heap => simp at hb
        | declared h => exact ⟨_, rfl, h⟩

/-! ## Value, storage and field types -/

/-- How the type of a parameter or a result is written. -/
inductive ValueType.Encoding : ValueType → List UInt8 → Prop
  | number (type : NumType) : Encoding (.number type) [type.byte]
  | short (heap : AbstractHeap) : Encoding (.reference ⟨true, .abstract heap⟩) [heap.byte]
  | nullable {heap : HeapType} {enc : List UInt8} (h : heap.Encoding enc) :
      Encoding (.reference ⟨true, heap⟩) (0x63 :: enc)
  | nonNull {heap : HeapType} {enc : List UInt8} (h : heap.Encoding enc) :
      Encoding (.reference ⟨false, heap⟩) (0x64 :: enc)

theorem ValueType.visible_encoding : Grammar.Visible ValueType.Encoding := nofun

theorem reads_valueType : Reads ValueType.decode ValueType.Encoding := by
  refine reads_position_bind fun start ↦
    reads_byte_bind ValueType.visible_encoding fun b ↦ ?_
  cases hn : NumType.ofByte? b with
  | some type =>
    -- In each branch the other alternatives are ruled out by their first bytes.
    refine (reads_pure (ValueType.number type)).congr fun a enc ↦ ?_
    constructor
    · rintro ⟨rfl, rfl⟩
      obtain rfl := NumType.ofByte?_eq_some.mp hn
      exact .number type
    · intro h
      cases h with
      | number type' => simpa [eq_comm] using hn
      | short heap => simp at hn
      | nullable h => cases hn
      | nonNull h => cases hn
  | none =>
    cases hh : AbstractHeap.ofByte? b with
    | some heap =>
      refine (reads_pure (ValueType.reference ⟨true, .abstract heap⟩)).congr fun a enc ↦ ?_
      constructor
      · rintro ⟨rfl, rfl⟩
        obtain rfl := AbstractHeap.ofByte?_eq_some.mp hh
        exact .short heap
      · intro h
        cases h with
        | number type => simp at hn
        | short heap' => simpa [eq_comm] using hh
        | nullable h => cases hh
        | nonNull h => cases hh
    | none =>
      simp only
      by_cases hb : b = nullableMarker ∨ b = referenceMarker
      · rw [if_pos hb]
        refine (reads_heapType.bind_pure fun heap ↦
          ValueType.reference ⟨b = nullableMarker, heap⟩).congr fun a enc ↦ ?_
        constructor
        · rintro ⟨heap, rfl, h⟩
          rcases hb with rfl | rfl
          · exact .nullable h
          · exact .nonNull h
        · intro h
          cases h with
          | number type => simp at hn
          | short heap => simp at hh
          | nullable h => exact ⟨_, rfl, h⟩
          | nonNull h => exact ⟨_, rfl, h⟩
      · rw [if_neg hb]
        refine (reads_failAt start _).congr fun a enc ↦ ?_
        rw [false_iff]
        intro h
        cases h with
        | number type => simp at hn
        | short heap => simp at hh
        | nullable h => exact hb (Or.inl rfl)
        | nonNull h => exact hb (Or.inr rfl)

/-- How the type that a field stores is written. -/
inductive StorageType.Encoding : StorageType → List UInt8 → Prop
  | packed (type : PackedType) : Encoding (.packed type) [type.byte]
  | value {type : ValueType} {enc : List UInt8} (h : type.Encoding enc) :
      Encoding (.value type) enc

theorem StorageType.visible_encoding : Grammar.Visible StorageType.Encoding := by
  intro type h
  cases h with
  | value h => exact ValueType.visible_encoding _ h

/-- No value type begins with the byte of a packed type. -/
theorem ValueType.Encoding.ofByte?_first {type : ValueType} {b : UInt8} {enc : List UInt8}
    (h : type.Encoding (b :: enc)) : PackedType.ofByte? b = none := by
  cases h with
  | number type => cases type <;> rfl
  | short heap => cases heap <;> rfl
  | nullable h => rfl
  | nonNull h => rfl

theorem reads_storageType : Reads StorageType.decode StorageType.Encoding := by
  refine reads_peek_bind StorageType.visible_encoding fun b ↦ ?_
  cases hb : PackedType.ofByte? b with
  | some type =>
    refine readsAt_byte_bind ((reads_pure (StorageType.packed type)).congr fun a enc ↦ ?_)
    constructor
    · rintro ⟨rfl, rfl⟩
      obtain rfl := PackedType.ofByte?_eq_some.mp hb
      exact .packed type
    · intro h
      cases h with
      | packed type' => simpa [eq_comm] using hb
      | value h => simp [h.ofByte?_first] at hb
  | none =>
    refine (reads_valueType.bind_pure StorageType.value).readsAt ?_ fun a enc ↦ ?_
    · rintro a ⟨type, -, h⟩
      exact ValueType.visible_encoding _ h
    · constructor
      · rintro ⟨type, rfl, h⟩
        exact .value h
      · intro h
        cases h with
        | packed type => simp at hb
        | value h => exact ⟨_, rfl, h⟩

/-- How a field is written. -/
inductive FieldType.Encoding : FieldType → List UInt8 → Prop
  | constant {storage : StorageType} {enc : List UInt8} (h : storage.Encoding enc) :
      Encoding ⟨storage, false⟩ (enc ++ [0x00])
  | mutable {storage : StorageType} {enc : List UInt8} (h : storage.Encoding enc) :
      Encoding ⟨storage, true⟩ (enc ++ [0x01])

theorem reads_fieldType : Reads FieldType.decode FieldType.Encoding := by
  have hflag (storage : StorageType) : Reads (do
      let start ← position
      let b ← byte
      if b = 0 then return ⟨storage, false⟩
      else if b = 1 then return ⟨storage, true⟩
      else failAt start (.mutability b))
      fun (a : FieldType) enc ↦
        a = ⟨storage, false⟩ ∧ enc = [0x00] ∨ a = ⟨storage, true⟩ ∧ enc = [0x01] := by
    refine reads_position_bind fun start ↦ reads_byte_bind (by rintro a (⟨-, h⟩ | ⟨-, h⟩) <;>
      cases h) fun b ↦ ?_
    by_cases h0 : b = 0
    · rw [if_pos h0]
      exact (reads_pure _).congr fun a enc ↦ by simp [Grammar.after, h0]
    · rw [if_neg h0]
      by_cases h1 : b = 1
      · rw [if_pos h1]
        exact (reads_pure _).congr fun a enc ↦ by simp [Grammar.after, h1]
      · rw [if_neg h1]
        exact (reads_failAt start _).congr fun a enc ↦ by simp [Grammar.after, h0, h1]
  refine (reads_storageType.bind hflag).congr fun a enc ↦ ?_
  constructor
  · rintro ⟨storage, e₁, e₂, h, ⟨rfl, rfl⟩ | ⟨rfl, rfl⟩, rfl⟩
    · exact .constant h
    · exact .mutable h
  · intro h
    cases h with
    | constant h => exact ⟨_, _, _, h, Or.inl ⟨rfl, rfl⟩, rfl⟩
    | mutable h => exact ⟨_, _, _, h, Or.inr ⟨rfl, rfl⟩, rfl⟩

/-! ## Composite types -/

/-- How a composite type is written. -/
inductive CompositeType.Encoding : CompositeType → List UInt8 → Prop
  | function {params results : List ValueType} {e₁ e₂ : List UInt8}
      (hparams : Grammar.vector ValueType.Encoding params e₁)
      (hresults : Grammar.vector ValueType.Encoding results e₂) :
      Encoding (.function ⟨params, results⟩) (0x60 :: (e₁ ++ e₂))
  | struct {fields : List FieldType} {enc : List UInt8}
      (h : Grammar.vector FieldType.Encoding fields enc) : Encoding (.struct fields) (0x5F :: enc)
  | array {element : FieldType} {enc : List UInt8} (h : element.Encoding enc) :
      Encoding (.array element) (0x5E :: enc)

theorem CompositeType.visible_encoding : Grammar.Visible CompositeType.Encoding := nofun

theorem reads_compositeType : Reads CompositeType.decode CompositeType.Encoding := by
  refine reads_position_bind fun start ↦
    reads_byte_bind CompositeType.visible_encoding fun form ↦ ?_
  by_cases hfunction : form = functionForm
  · rw [if_pos hfunction]
    subst hfunction
    refine ((reads_vector reads_valueType).bind fun params ↦
      (reads_vector reads_valueType).bind_pure fun results ↦
        CompositeType.function ⟨params, results⟩).congr fun a enc ↦ ?_
    constructor
    · rintro ⟨params, e₁, e₂, hparams, ⟨results, rfl, hresults⟩, rfl⟩
      exact .function hparams hresults
    · intro h
      cases h with
      | function hparams hresults => exact ⟨_, _, _, hparams, ⟨_, rfl, hresults⟩, rfl⟩
  · rw [if_neg hfunction]
    by_cases hstruct : form = structForm
    · rw [if_pos hstruct]
      subst hstruct
      refine ((reads_vector reads_fieldType).bind_pure CompositeType.struct).congr
        fun a enc ↦ ?_
      constructor
      · rintro ⟨fields, rfl, h⟩
        exact .struct h
      · intro h
        cases h with
        | struct h => exact ⟨_, rfl, h⟩
    · rw [if_neg hstruct]
      by_cases harray : form = arrayForm
      · rw [if_pos harray]
        subst harray
        refine (reads_fieldType.bind_pure CompositeType.array).congr fun a enc ↦ ?_
        constructor
        · rintro ⟨element, rfl, h⟩
          exact .array h
        · intro h
          cases h with
          | array h => exact ⟨_, rfl, h⟩
      · rw [if_neg harray]
        refine (reads_failAt start _).congr fun a enc ↦ ?_
        rw [false_iff]
        intro h
        cases h with
        | function hparams hresults => exact hfunction rfl
        | struct h => exact hstruct rfl
        | array h => exact harray rfl

/-! ## Declarations -/

/-- How a declared type is written. A declaration without marker is final and has no supertypes, and
may as well be written with the marker that says so. -/
inductive SubType.Encoding : SubType → List UInt8 → Prop
  | plain {composite : CompositeType} {enc : List UInt8} (h : composite.Encoding enc) :
      Encoding ⟨composite, true, []⟩ enc
  | sub {composite : CompositeType} {supertypes : List ℕ} {e₁ e₂ : List UInt8}
      (hsupertypes : Grammar.u32.vector supertypes e₁) (h : composite.Encoding e₂) :
      Encoding ⟨composite, false, supertypes⟩ (0x50 :: (e₁ ++ e₂))
  | finalSub {composite : CompositeType} {supertypes : List ℕ} {e₁ e₂ : List UInt8}
      (hsupertypes : Grammar.u32.vector supertypes e₁) (h : composite.Encoding e₂) :
      Encoding ⟨composite, true, supertypes⟩ (0x4F :: (e₁ ++ e₂))

theorem SubType.visible_encoding : Grammar.Visible SubType.Encoding := by
  intro type h
  cases h with
  | plain h => exact CompositeType.visible_encoding _ h

/-- The first bytes of composite types are their three forms, and no markers. -/
theorem CompositeType.Encoding.first_mem {type : CompositeType} {b : UInt8} {enc : List UInt8}
    (h : type.Encoding (b :: enc)) : b ∈ ([0x60, 0x5F, 0x5E] : List UInt8) := by
  cases h <;> decide

theorem reads_subType : Reads SubType.decode SubType.Encoding := by
  refine reads_peek_bind SubType.visible_encoding fun b ↦ ?_
  by_cases hb : b = subMarker ∨ b = finalSubMarker
  · rw [if_pos hb]
    refine readsAt_byte_bind (((reads_vector reads_u32).bind fun supertypes ↦
      reads_compositeType.bind_pure fun composite ↦
        (⟨composite, b = finalSubMarker, supertypes⟩ : SubType)).congr fun a enc ↦ ?_)
    constructor
    · rintro ⟨supertypes, e₁, e₂, hs, ⟨composite, rfl, h⟩, rfl⟩
      rcases hb with rfl | rfl
      · exact .sub hs h
      · exact .finalSub hs h
    · intro h
      cases h with
      | plain h =>
        -- Without a marker the first byte is that of a form.
        have hform := h.first_mem
        rcases hb with rfl | rfl <;> exact absurd hform (by decide)
      | sub hs h => exact ⟨_, _, _, hs, ⟨_, rfl, h⟩, rfl⟩
      | finalSub hs h => exact ⟨_, _, _, hs, ⟨_, rfl, h⟩, rfl⟩
  · rw [if_neg hb]
    refine (reads_compositeType.bind_pure fun composite ↦
      (⟨composite, true, []⟩ : SubType)).readsAt ?_ fun a enc ↦ ?_
    · rintro a ⟨composite, -, h⟩
      exact CompositeType.visible_encoding _ h
    · constructor
      · rintro ⟨composite, rfl, h⟩
        exact .plain h
      · intro h
        cases h with
        | plain h => exact ⟨_, rfl, h⟩
        | sub hs h => exact absurd (Or.inl rfl) hb
        | finalSub hs h => exact absurd (Or.inr rfl) hb

/-- How an entry of a type section is written. -/
inductive RecGroup.Encoding : RecGroup → List UInt8 → Prop
  | lone {type : SubType} {enc : List UInt8} (h : type.Encoding enc) :
      Encoding ⟨[type], false⟩ enc
  | written {types : List SubType} {enc : List UInt8}
      (h : Grammar.vector SubType.Encoding types enc) : Encoding ⟨types, true⟩ (0x4E :: enc)

theorem RecGroup.visible_encoding : Grammar.Visible RecGroup.Encoding := by
  intro group h
  cases h with
  | lone h => exact SubType.visible_encoding _ h

/-- No declaration begins with the marker of a group. -/
theorem SubType.Encoding.first_ne {type : SubType} {b : UInt8} {enc : List UInt8}
    (h : type.Encoding (b :: enc)) : b ≠ groupMarker := by
  cases h with
  | plain h =>
    have hform := h.first_mem
    rintro rfl
    exact absurd hform (by decide)
  | sub hs h => decide
  | finalSub hs h => decide

theorem reads_recGroup : Reads RecGroup.decode RecGroup.Encoding := by
  refine reads_peek_bind RecGroup.visible_encoding fun b ↦ ?_
  by_cases hb : b = groupMarker
  · rw [if_pos hb]
    refine readsAt_byte_bind (((reads_vector reads_subType).bind_pure fun types ↦
      (⟨types, true⟩ : RecGroup)).congr fun a enc ↦ ?_)
    constructor
    · rintro ⟨types, rfl, h⟩
      rw [hb]
      exact .written h
    · intro h
      cases h with
      | lone h => exact absurd hb h.first_ne
      | written h => exact ⟨_, rfl, h⟩
  · rw [if_neg hb]
    refine (reads_subType.bind_pure fun type ↦ (⟨[type], false⟩ : RecGroup)).readsAt ?_
      fun a enc ↦ ?_
    · rintro a ⟨type, -, h⟩
      exact SubType.visible_encoding _ h
    · constructor
      · rintro ⟨type, rfl, h⟩
        exact .lone h
      · intro h
        cases h with
        | lone h => exact ⟨_, rfl, h⟩
        | written h => exact absurd rfl hb

end CallGate.Wasm
