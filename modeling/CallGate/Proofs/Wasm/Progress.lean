import CallGate.Proofs.Data.Outcome
import CallGate.Wasm.Module

/-!
# Every item uses a byte

The counts in a module are up to four billion and come from whoever wrote it. No loop over items
runs that often. Each kind of item takes at least one byte, which `Consumes 1` says of its decoder,
so a loop with more items to go than there are bytes left ends in an error, and it ends in the same
error whatever the count: `Consumes.repeated_eq_error`. The work is bounded by the bytes.
-/

namespace CallGate.Wasm

namespace Decoder

variable {α β : Type} {n : Nat}

/-! ## Steps -/

/-- What is used first stays used. -/
theorem Consumes.before {d : Decoder α} {f : α → Decoder β} (hd : Consumes n d)
    (hf : ∀ a, Consumes 0 (f a)) : Consumes n (d >>= f) := hd.bind hf

/-- What is used later counts as well. -/
theorem Consumes.after {d : Decoder α} {f : α → Decoder β} (hd : Consumes 0 d)
    (hf : ∀ a, Consumes n (f a)) : Consumes n (d >>= f) :=
  Nat.zero_add n ▸ hd.bind hf

theorem Consumes.lax {d : Decoder α} (hd : Consumes n d) : Consumes 0 d := hd.mono (Nat.zero_le n)

theorem consumes_throw (n : Nat) (e : ScanError) : Consumes n (throw e : Decoder α) := by
  intro w w' a h
  cases h

theorem consumes_peek : Consumes 0 peek := by
  intro w w' a h
  unfold peek at h
  split at h
  · cases h
  · cases h
    exact Nat.le_refl _

theorem consumes_s33 : Consumes 1 s33 := by
  refine consumes_position.after fun start ↦ ?_
  refine (consumes_sevenBitGroups start 5).before fun groups ↦ ?_
  split
  · exact consumes_pure _
  · exact consumes_failAt 0 _ _

theorem consumes_name : Consumes 1 name := by
  refine consumes_u32.before fun length ↦ consumes_position.after fun start ↦ ?_
  refine (consumes_bytes length).lax.before fun content ↦ ?_
  split
  · exact consumes_pure _
  · exact consumes_failAt 0 _ _

/-! ## Loops -/

theorem Consumes.repeated {item : Decoder α} (h : Consumes 0 item) (count : Nat) :
    Consumes 0 (repeated item count) := by
  induction count with
  | zero => exact consumes_pure _
  | succ count ih => exact h.before fun _ ↦ ih.before fun _ ↦ consumes_pure _

theorem Consumes.vector {item : Decoder α} (h : Consumes 0 item) : Consumes 1 (vector item) :=
  consumes_u32.before fun count ↦ h.repeated count

theorem repeated_succ_of_error {item : Decoder α} {w w' : Window} {e : ScanError}
    (h : item w = .error e w') (count : Nat) :
    Decoder.repeated item (count + 1) w = .error e w' :=
  Data.bind_of_error h _

theorem repeated_succ_of_ok {item : Decoder α} {w w' w'' : Window} {a : α} {e : ScanError}
    (h : item w = .ok a w') {count : Nat} (hrest : Decoder.repeated item count w' = .error e w'') :
    Decoder.repeated item (count + 1) w = .error e w'' :=
  (Data.bind_of_ok h _).trans (Data.bind_of_error hrest _)

/-- **The bytes bound the loop, not the count.** With more items to go than bytes are left, a loop
over items that use a byte each ends in an error, in the same one for all such counts. -/
theorem Consumes.repeated_eq_error {item : Decoder α} (h : Consumes 1 item) {w : Window} :
    ∃ e w', ∀ count, w.bytes.length < count → Decoder.repeated item count w = .error e w' := by
  -- The induction is on the bytes that are left: an item that succeeds leaves fewer of them.
  induction hlen : w.bytes.length using Nat.strongRecOn generalizing w with
  | ind len ih =>
    subst hlen
    cases hitem : item w with
    | error e w' =>
      refine ⟨e, w', fun count hcount ↦ ?_⟩
      obtain ⟨k, rfl⟩ := Nat.exists_eq_add_one_of_ne_zero (Nat.ne_zero_of_lt hcount)
      exact repeated_succ_of_error hitem k
    | ok a w' =>
      have hused := h hitem
      obtain ⟨e, w'', hrest⟩ := ih w'.bytes.length (by omega) rfl
      refine ⟨e, w'', fun count hcount ↦ ?_⟩
      obtain ⟨k, rfl⟩ := Nat.exists_eq_add_one_of_ne_zero (Nat.ne_zero_of_lt hcount)
      exact repeated_succ_of_ok hitem (hrest k (by omega))

/-- A window begins with a count that is larger than the number of bytes behind it. -/
def Overcounts (w : Window) : Prop :=
  ∃ count rest, u32 w = .ok count rest ∧ rest.bytes.length < count

/-- A vector that announces more items than there are bytes for them cannot be read. -/
theorem Consumes.vector_eq_error {item : Decoder α} (h : Consumes 1 item) {w : Window}
    (hw : Overcounts w) : ∃ e w', Decoder.vector item w = .error e w' := by
  obtain ⟨count, rest, hu32, hcount⟩ := hw
  obtain ⟨e, w', hrest⟩ := h.repeated_eq_error (w := rest)
  refine ⟨e, w', ?_⟩
  exact (Data.bind_of_ok hu32 (Decoder.repeated item)).trans (hrest count hcount)

end Decoder

open Decoder

/-! ## The items of a module -/

theorem consumes_heapType : Consumes 1 HeapType.decode := by
  refine consumes_peek.after fun b ↦ ?_
  split
  · exact consumes_byte.before fun _ ↦ consumes_pure _
  · refine consumes_position.after fun start ↦ consumes_s33.before fun index ↦ ?_
    split
    · exact consumes_failAt 0 _ _
    · exact consumes_pure _

theorem consumes_valueType : Consumes 1 ValueType.decode := by
  refine consumes_position.after fun start ↦ consumes_byte.before fun b ↦ ?_
  split
  · exact consumes_pure _
  · exact consumes_pure _
  · split
    · exact consumes_heapType.lax.before fun _ ↦ consumes_pure _
    · exact consumes_failAt 0 _ _

theorem consumes_storageType : Consumes 1 StorageType.decode := by
  refine consumes_peek.after fun b ↦ ?_
  split
  · exact consumes_byte.before fun _ ↦ consumes_pure _
  · exact consumes_valueType.before fun _ ↦ consumes_pure _

theorem consumes_fieldType : Consumes 1 FieldType.decode := by
  refine consumes_storageType.before fun storage ↦ consumes_position.after fun start ↦ ?_
  refine consumes_byte.lax.before fun b ↦ ?_
  split
  · exact consumes_pure _
  · split
    · exact consumes_pure _
    · exact consumes_failAt 0 _ _

theorem consumes_compositeType : Consumes 1 CompositeType.decode := by
  refine consumes_position.after fun start ↦ consumes_byte.before fun form ↦ ?_
  have hvalues := consumes_valueType.lax.vector.lax
  split
  · exact hvalues.before fun _ ↦ hvalues.before fun _ ↦ consumes_pure _
  · split
    · exact consumes_fieldType.lax.vector.lax.before fun _ ↦ consumes_pure _
    · split
      · exact consumes_fieldType.lax.before fun _ ↦ consumes_pure _
      · exact consumes_failAt 0 _ _

theorem consumes_subType : Consumes 1 SubType.decode := by
  refine consumes_peek.after fun b ↦ ?_
  split
  · refine consumes_byte.before fun _ ↦ consumes_u32.lax.vector.lax.before fun supertypes ↦ ?_
    exact consumes_compositeType.lax.before fun _ ↦ consumes_pure _
  · exact consumes_compositeType.before fun _ ↦ consumes_pure _

theorem consumes_recGroup : Consumes 1 RecGroup.decode := by
  refine consumes_peek.after fun b ↦ ?_
  split
  · refine consumes_byte.before fun _ ↦ ?_
    exact consumes_subType.lax.vector.lax.before fun _ ↦ consumes_pure _
  · exact consumes_subType.before fun _ ↦ consumes_pure _

theorem consumes_importEntry : Consumes 1 ImportEntry.decode := by
  refine consumes_name.before fun module ↦ consumes_name.lax.before fun name ↦ ?_
  refine consumes_position.after fun start ↦ consumes_byte.lax.before fun b ↦ ?_
  split
  · exact consumes_failAt 0 _ _
  · exact consumes_u32.lax.before fun _ ↦ consumes_pure _
  · exact consumes_throw 0 _

end CallGate.Wasm
