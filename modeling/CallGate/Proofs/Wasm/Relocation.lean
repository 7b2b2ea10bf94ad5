import CallGate.Proofs.Data.Outcome
import CallGate.Wasm.Module
import Mathlib.Data.Nat.Notation

/-!
# Decoders do not care where they are

A decoder knows the absolute offset of each byte, and it may use it to blame a place. It uses it for
nothing else: on the same bytes at another offset it finds the same value, goes on as far, or stops
for the same reason, and the place it blames has moved with the bytes.

`Relocates low low' d d'` says that `d` behind `low` does what `d'` does behind `low'`. There are
two decoders in it, although in the end they are the same one. A decoder that has taken the position
goes on with it, and from there on the two runs have different positions in hand. What they know of
them is the distance, to `low` in the one and to `low'` in the other (`relocates_position_bind`).
-/

namespace CallGate.Wasm

open Data

namespace Decoder

variable {α β : Type} {low low' : ℕ}

/-- A decoder behind `low` and one behind `low'` end at the same distance: with the same value, with
an error that blames the same distance, or with the same error that blames no place. -/
inductive SameDistance (low low' : ℕ) :
    EStateM.Result ScanError Window α → EStateM.Result ScanError Window α → Prop
  | ok (a : α) (distance : ℕ) (rest : List UInt8) :
      SameDistance low low' (.ok a ⟨low + distance, rest⟩) (.ok a ⟨low' + distance, rest⟩)
  | malformed (blamed : ℕ) (fault : Fault) (distance : ℕ) (rest : List UInt8) :
      SameDistance low low' (.error (.malformed (low + blamed) fault) ⟨low + distance, rest⟩)
        (.error (.malformed (low' + blamed) fault) ⟨low' + distance, rest⟩)
  | foreign (module name : String) (kind : ImportKind) (distance : ℕ) (rest : List UInt8) :
      SameDistance low low' (.error (.nonFunctionImport module name kind) ⟨low + distance, rest⟩)
        (.error (.nonFunctionImport module name kind) ⟨low' + distance, rest⟩)

/-- On the same bytes, at the same distance behind `low` and `low'`, two decoders end alike. -/
def Relocates (low low' : ℕ) (d d' : Decoder α) : Prop :=
  ∀ (distance : ℕ) (bytes : List UInt8),
    SameDistance low low' (d ⟨low + distance, bytes⟩) (d' ⟨low' + distance, bytes⟩)

/-! ## Sequences -/

theorem relocates_pure (a : α) : Relocates low low' (pure a) (pure a) :=
  fun distance bytes ↦ .ok a distance bytes

/-- A decoder goes on from where another one stopped, which is at the same distance in both runs. -/
theorem Relocates.bind {d d' : Decoder α} {f g : α → Decoder β} (hd : Relocates low low' d d')
    (hfg : ∀ a, Relocates low low' (f a) (g a)) : Relocates low low' (d >>= f) (d' >>= g) := by
  intro distance bytes
  have hfirst := hd distance bytes
  generalize hx : d ⟨low + distance, bytes⟩ = x, hy : d' ⟨low' + distance, bytes⟩ = y at hfirst
  cases hfirst with
  | ok a =>
    rw [bind_of_ok hx, bind_of_ok hy]
    exact hfg a _ _
  | malformed =>
    rw [bind_of_error hx, bind_of_error hy]
    exact .malformed _ _ _ _
  | foreign =>
    rw [bind_of_error hx, bind_of_error hy]
    exact .foreign _ _ _ _ _

theorem Relocates.map {d d' : Decoder α} (hd : Relocates low low' d d') (f : α → β) :
    Relocates low low' (do return f (← d)) (do return f (← d')) :=
  hd.bind fun a ↦ relocates_pure (f a)

theorem Relocates.ite {p : Prop} [Decidable p] {d d' e e' : Decoder α}
    (hd : Relocates low low' d d') (he : Relocates low low' e e') :
    Relocates low low' (if p then d else e) (if p then d' else e') := by
  split
  · exact hd
  · exact he

/-- A place that is blamed lies as far behind `low` as the other one behind `low'`. -/
theorem relocates_failAt (blamed : ℕ) (fault : Fault) :
    Relocates low low' (failAt (low + blamed) fault : Decoder α) (failAt (low' + blamed) fault) :=
  fun distance bytes ↦ .malformed blamed fault distance bytes

theorem relocates_foreign (module name : String) (kind : ImportKind) :
    Relocates low low' (throw (.nonFunctionImport module name kind) : Decoder α)
      (throw (.nonFunctionImport module name kind)) :=
  fun distance bytes ↦ .foreign module name kind distance bytes

/-- A position that is taken for later is known by its distance. -/
theorem relocates_position_bind {f g : ℕ → Decoder α}
    (h : ∀ distance, Relocates low low' (f (low + distance)) (g (low' + distance))) :
    Relocates low low' (position >>= f) (position >>= g) :=
  fun distance bytes ↦ h distance distance bytes

/-! ## Steps -/

theorem relocates_byte : Relocates low low' byte byte := by
  intro distance bytes
  cases bytes with
  | nil => exact .malformed distance _ _ _
  | cons b rest => exact .ok b (distance + 1) rest

theorem relocates_peek : Relocates low low' peek peek := by
  intro distance bytes
  cases bytes with
  | nil => exact .malformed distance _ _ _
  | cons b rest => exact .ok b distance (b :: rest)

theorem relocates_bytes (count : ℕ) : Relocates low low' (bytes count) (bytes count) := by
  intro distance content
  rw [bytes, bytes]
  split
  · exact .malformed distance _ _ _
  · rw [Nat.add_assoc, Nat.add_assoc]
    exact .ok _ (distance + count) _

/-- A window that is split off lies elsewhere, with the same bytes in it. -/
theorem relocates_windowBytes (size : ℕ) :
    Relocates low low' (do return (← window size).bytes) (do return (← window size).bytes) := by
  intro distance content
  by_cases hsize : content.length < size
  · have hwindow (offset : ℕ) : window size ⟨offset, content⟩ =
        .error (.malformed offset (.sectionTooLarge size content.length)) ⟨offset, content⟩ :=
      if_pos hsize
    rw [bind_of_error (hwindow _), bind_of_error (hwindow _)]
    exact .malformed distance _ _ _
  · have hwindow (offset : ℕ) : window size ⟨offset, content⟩ =
        .ok ⟨offset, content.take size⟩ ⟨offset + size, content.drop size⟩ :=
      if_neg hsize
    rw [bind_of_ok (hwindow _), bind_of_ok (hwindow _), Nat.add_assoc, Nat.add_assoc]
    exact .ok _ (distance + size) _

theorem relocates_expectEnd (place : String) :
    Relocates low low' (expectEnd place) (expectEnd place) := by
  intro distance bytes
  rw [expectEnd, expectEnd]
  split
  · exact .ok () distance bytes
  · exact .malformed distance _ _ _

/-! ## Integers, names and vectors -/

theorem relocates_sevenBitGroups (began left : ℕ) :
    Relocates low low' (sevenBitGroups (low + began) left)
      (sevenBitGroups (low' + began) left) := by
  induction left with
  | zero => exact relocates_failAt began _
  | succ left ih => exact relocates_byte.bind fun b ↦ .ite (relocates_pure [b]) (ih.map (b :: ·))

theorem relocates_u32 : Relocates low low' u32 u32 := by
  refine relocates_position_bind fun began ↦ (relocates_sevenBitGroups began 5).bind fun groups ↦ ?_
  exact .ite (relocates_pure _) (relocates_failAt began _)

theorem relocates_s33 : Relocates low low' s33 s33 := by
  refine relocates_position_bind fun began ↦ (relocates_sevenBitGroups began 5).bind fun groups ↦ ?_
  exact .ite (relocates_pure _) (relocates_failAt began _)

theorem relocates_name : Relocates low low' name name := by
  refine relocates_u32.bind fun length ↦ relocates_position_bind fun began ↦ ?_
  refine (relocates_bytes length).bind fun content ↦ ?_
  cases String.fromUTF8? content.toByteArray with
  | some text => exact relocates_pure text
  | none => exact relocates_failAt began _

theorem Relocates.repeated {item : Decoder α} (h : Relocates low low' item item) (count : ℕ) :
    Relocates low low' (repeated item count) (repeated item count) := by
  induction count with
  | zero => exact relocates_pure []
  | succ count ih => exact h.bind fun first ↦ ih.map (first :: ·)

theorem Relocates.vector {item : Decoder α} (h : Relocates low low' item item) :
    Relocates low low' (vector item) (vector item) :=
  relocates_u32.bind h.repeated

/-! ## Types and imports -/

theorem relocates_heapType : Relocates low low' HeapType.decode HeapType.decode := by
  refine relocates_peek.bind fun b ↦ ?_
  cases AbstractHeap.ofByte? b with
  | some heap => exact relocates_byte.map _
  | none =>
    refine relocates_position_bind fun began ↦ relocates_s33.bind fun index ↦ ?_
    exact .ite (relocates_failAt began _) (relocates_pure _)

theorem relocates_valueType : Relocates low low' ValueType.decode ValueType.decode := by
  refine relocates_position_bind fun began ↦ relocates_byte.bind fun b ↦ ?_
  cases NumType.ofByte? b with
  | some type => exact relocates_pure _
  | none =>
    cases AbstractHeap.ofByte? b with
    | some heap => exact relocates_pure _
    | none => exact .ite (relocates_heapType.map _) (relocates_failAt began _)

theorem relocates_storageType : Relocates low low' StorageType.decode StorageType.decode := by
  refine relocates_peek.bind fun b ↦ ?_
  cases PackedType.ofByte? b with
  | some type => exact relocates_byte.map _
  | none => exact relocates_valueType.map _

theorem relocates_fieldType : Relocates low low' FieldType.decode FieldType.decode := by
  refine relocates_storageType.bind fun storage ↦ relocates_position_bind fun began ↦ ?_
  refine relocates_byte.bind fun b ↦ ?_
  exact .ite (relocates_pure _) (.ite (relocates_pure _) (relocates_failAt began _))

theorem relocates_compositeType : Relocates low low' CompositeType.decode CompositeType.decode := by
  refine relocates_position_bind fun began ↦ relocates_byte.bind fun form ↦ ?_
  refine .ite ?function (.ite ?struct (.ite ?array (relocates_failAt began _)))
  case function =>
    refine relocates_valueType.vector.bind fun params ↦ ?_
    exact relocates_valueType.vector.map _
  case struct => exact relocates_fieldType.vector.map _
  case array => exact relocates_fieldType.map _

theorem relocates_subType : Relocates low low' SubType.decode SubType.decode := by
  refine relocates_peek.bind fun b ↦ .ite ?_ (relocates_compositeType.map _)
  refine relocates_byte.bind fun _ ↦ relocates_u32.vector.bind fun supertypes ↦ ?_
  exact relocates_compositeType.map _

theorem relocates_recGroup : Relocates low low' RecGroup.decode RecGroup.decode := by
  refine relocates_peek.bind fun b ↦ .ite ?_ (relocates_subType.map _)
  exact relocates_byte.bind fun _ ↦ relocates_subType.vector.map _

theorem relocates_importEntry : Relocates low low' ImportEntry.decode ImportEntry.decode := by
  refine relocates_name.bind fun module ↦ relocates_name.bind fun name ↦ ?_
  refine relocates_position_bind fun began ↦ relocates_byte.bind fun b ↦ ?_
  cases ImportKind.ofByte? b with
  | none => exact relocates_failAt began _
  | some kind =>
    cases kind with
    | function => exact relocates_u32.map _
    | table | memory | global | tag => exact relocates_foreign module name _

end Decoder

end CallGate.Wasm
