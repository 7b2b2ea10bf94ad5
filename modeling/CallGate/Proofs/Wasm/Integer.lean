import CallGate.Proofs.Wasm.Grammar
import Mathlib.Data.Nat.Digits.Defs

/-!
# Integers

The grammars of the two kinds of integer, and that `u32` and `s33` read them. The framing is the
same for both, `leb128`: one to five bytes, of which exactly the last one has a clear top bit. What
the bytes mean is said with the digits of a number to base 128, so that it is the place of a byte
and not a loop that counts.
-/

namespace CallGate.Wasm

open Decoder

/-! ## Framing -/

namespace Grammar

/-- One LEB128 integer of at most `most` bytes: all but the last one have the top bit set. -/
def leb128 (most : ℕ) (enc : List UInt8) : Prop :=
  ∃ more last, enc = more ++ [last] ∧ more.length < most ∧ (∀ b ∈ more, 0x80 ≤ b) ∧ last < 0x80

theorem not_leb128_zero (enc : List UInt8) : ¬ leb128 0 enc := by
  rintro ⟨more, last, -, hlen, -⟩
  exact absurd hlen (Nat.not_lt_zero _)

theorem not_leb128_nil (most : ℕ) : ¬ leb128 most [] := by
  rintro ⟨more, last, h, -⟩
  simp at h

theorem leb128_cons {most : ℕ} {b : UInt8} {enc : List UInt8} :
    leb128 (most + 1) (b :: enc) ↔ b < 0x80 ∧ enc = [] ∨ 0x80 ≤ b ∧ leb128 most enc := by
  constructor
  · rintro ⟨more, last, h, hlen, hmore, hlast⟩
    cases more with
    | nil =>
      obtain ⟨rfl, rfl⟩ := List.cons.inj h
      exact Or.inl ⟨hlast, rfl⟩
    | cons c more =>
      obtain ⟨rfl, rfl⟩ := List.cons.inj h
      refine Or.inr ⟨hmore b List.mem_cons_self, more, last, rfl, ?_, ?_, hlast⟩
      · exact Nat.lt_of_succ_lt_succ hlen
      · exact fun c hc ↦ hmore c (List.mem_cons_of_mem _ hc)
  · rintro (⟨hb, rfl⟩ | ⟨hb, more, last, rfl, hlen, hmore, hlast⟩)
    · exact ⟨[], b, rfl, Nat.succ_pos _, by simp, hb⟩
    · refine ⟨b :: more, last, rfl, Nat.succ_lt_succ hlen, ?_, hlast⟩
      intro c hc
      rcases List.mem_cons.mp hc with rfl | hc
      · exact hb
      · exact hmore c hc

/-! ## Meaning -/

/-- The lower seven bits of some bytes as one number, the first byte counting least. -/
def sevenBits (enc : List UInt8) : ℕ := Nat.ofDigits 128 (enc.map fun b ↦ b.toNat % 128)

/-- Unsigned integers of 32 bits, in any encoding of at most five bytes. -/
def u32 : Grammar ℕ := fun n enc ↦ leb128 5 enc ∧ n = sevenBits enc ∧ n < 2 ^ 32

/-- Signed integers of 33 bits, in any encoding of at most five bytes. Bit 6 of the last byte is the
sign. -/
def s33 : Grammar ℤ := fun n enc ↦
  leb128 5 enc ∧
    n = sevenBits enc - (if (enc.getLastD 0).toNat.testBit 6 then 2 ^ (7 * enc.length) else 0) ∧
    -2 ^ 32 ≤ n ∧ n < 2 ^ 32

theorem visible_s33 : s33.Visible := fun _ h ↦ not_leb128_nil 5 h.1

/-! ### Padding

Every integer in range can be written in five bytes, so that no grammar built on integers is without
encodings. -/

/-- An integer in five bytes, whether it needs them or not. -/
def padded (n : ℕ) : List UInt8 :=
  [.ofNat (n % 128 + 128), .ofNat (n / 128 % 128 + 128), .ofNat (n / 128 ^ 2 % 128 + 128),
    .ofNat (n / 128 ^ 3 % 128 + 128), .ofNat (n / 128 ^ 4)]

theorem leb128_padded {n : ℕ} (h : n < 2 ^ 32) : leb128 5 (padded n) := by
  have hlast : n / 128 ^ 4 < 128 := by omega
  refine ⟨(padded n).dropLast, .ofNat (n / 128 ^ 4), rfl, by simp [padded], ?_, ?_⟩
  · intro b hb
    simp only [padded, List.dropLast_cons_cons, List.dropLast_singleton, List.mem_cons,
      List.not_mem_nil, or_false] at hb
    rcases hb with rfl | rfl | rfl | rfl <;>
      simp only [UInt8.le_iff_toNat_le, UInt8.toNat_ofNat'] <;> simp <;> omega
  · simp only [UInt8.lt_iff_toNat_lt, UInt8.toNat_ofNat']
    simp
    omega

theorem sevenBits_padded {n : ℕ} (h : n < 2 ^ 32) : sevenBits (padded n) = n := by
  simp only [sevenBits, padded, List.map_cons, List.map_nil, UInt8.toNat_ofNat',
    Nat.ofDigits_cons, Nat.ofDigits_nil]
  omega

theorem u32_padded {n : ℕ} (h : n < 2 ^ 32) : u32 n (padded n) :=
  ⟨leb128_padded h, (sevenBits_padded h).symm, h⟩

theorem s33_padded {n : ℕ} (h : n < 2 ^ 32) : s33 n (padded n) := by
  have hsign : ((padded n).getLastD 0).toNat.testBit 6 = false := by
    have hlast : ((padded n).getLastD 0).toNat = n / 128 ^ 4 := by
      simp [padded]
      omega
    rw [hlast, Nat.testBit_eq_decide_div_mod_eq]
    simp
    omega
  refine ⟨leb128_padded h, ?_, by omega, by omega⟩
  rw [hsign, sevenBits_padded h]
  simp

end Grammar

open Grammar

theorem unsigned_eq_sevenBits (enc : List UInt8) : unsigned enc = sevenBits enc := by
  induction enc with
  | nil => rfl
  | cons b enc ih =>
    rw [unsigned, ih, sevenBits, sevenBits, List.map_cons, Nat.ofDigits_cons]

/-- Below 128, bit 6 says which half a number lies in. -/
private theorem testBit_six (n : ℕ) : n.testBit 6 = !decide (n % 128 < 64) := by
  rw [Nat.testBit_eq_decide_div_mod_eq, ← decide_not, decide_eq_decide]
  omega

theorem signed_eq (enc : List UInt8) :
    signed enc =
      sevenBits enc -
        (if (enc.getLastD 0).toNat.testBit 6 then 2 ^ (7 * enc.length) else 0) := by
  rw [signed, unsigned_eq_sevenBits, testBit_six]
  generalize (enc.getLastD 0).toNat = last
  by_cases hlast : last % 128 < 64
  · simp [hlast]
  · have hpow : ((Nat.pow 128 enc.length : ℕ) : ℤ) = 2 ^ (7 * enc.length) := by
      rw [pow_mul]
      exact Nat.cast_pow 128 enc.length
    rw [if_neg hlast, if_pos (by simpa using hlast), hpow]

/-! ## Reading -/

namespace Decoder

theorem reads_sevenBitGroups (start most : ℕ) :
    Reads (sevenBitGroups start most) fun groups enc ↦ groups = enc ∧ leb128 most enc := by
  induction most with
  | zero => exact (reads_failAt start _).congr fun groups enc ↦ by simp [not_leb128_zero]
  | succ most ih =>
    refine reads_byte_bind (fun groups h ↦ not_leb128_nil _ h.2) fun b ↦ ?_
    -- The first byte with a clear top bit is the last one.
    by_cases hb : b < 0x80
    · rw [if_pos hb]
      refine (reads_pure [b]).congr fun groups enc ↦ ?_
      have hb' : ¬ 0x80 ≤ b := UInt8.not_le.mpr hb
      simp only [after, leb128_cons, hb, hb', true_and, false_and, or_false]
      constructor
      · rintro ⟨rfl, rfl⟩
        exact ⟨rfl, rfl⟩
      · rintro ⟨rfl, rfl⟩
        exact ⟨rfl, rfl⟩
    · rw [if_neg hb]
      refine (ih.bind fun groups ↦ reads_pure (b :: groups)).congr fun groups enc ↦ ?_
      have hb' : 0x80 ≤ b := UInt8.not_lt.mp hb
      simp only [after, seq, leb128_cons, hb, hb', true_and, false_and, false_or]
      constructor
      · rintro ⟨tail, e₁, e₂, ⟨rfl, h⟩, ⟨rfl, rfl⟩, rfl⟩
        simpa using h
      · rintro ⟨rfl, h⟩
        exact ⟨enc, enc, [], ⟨rfl, h⟩, ⟨rfl, rfl⟩, by simp⟩

/-- A decoder that takes the groups of one integer and then either answers or fails. -/
private theorem reads_integer {α : Type} (value : List UInt8 → α) (inRange : List UInt8 → Prop)
    [DecidablePred inRange] :
    Reads (do
      let start ← position
      let groups ← sevenBitGroups start 5
      if inRange groups then return value groups else failAt start .integerTooLarge)
      fun a enc ↦ leb128 5 enc ∧ a = value enc ∧ inRange enc := by
  refine reads_position_bind fun start ↦ ?_
  have hf : ∀ groups, Reads
      (if inRange groups then (pure (value groups) : Decoder α)
        else failAt start .integerTooLarge)
      fun a enc ↦ inRange groups ∧ a = value groups ∧ enc = [] := by
    intro groups
    by_cases h : inRange groups
    · rw [if_pos h]
      exact (reads_pure (value groups)).congr fun a enc ↦ by simp [h]
    · rw [if_neg h]
      exact (reads_failAt start _).congr fun a enc ↦ by simp [h]
  refine ((reads_sevenBitGroups start 5).bind hf).congr fun a enc ↦ ?_
  constructor
  · rintro ⟨groups, e₁, e₂, ⟨rfl, h⟩, ⟨hr, rfl, rfl⟩, rfl⟩
    simpa using ⟨h, hr⟩
  · rintro ⟨h, rfl, hr⟩
    exact ⟨enc, enc, [], ⟨rfl, h⟩, ⟨hr, rfl, rfl⟩, by simp⟩

theorem reads_u32 : Reads u32 Grammar.u32 := by
  refine (reads_integer unsigned (unsigned · < 0x100000000)).congr fun n enc ↦ ?_
  rw [Grammar.u32, ← unsigned_eq_sevenBits]
  constructor
  · rintro ⟨h, rfl, hr⟩
    exact ⟨h, rfl, hr⟩
  · rintro ⟨h, rfl, hr⟩
    exact ⟨h, rfl, hr⟩

theorem reads_s33 : Reads s33 Grammar.s33 := by
  refine (reads_integer signed
    fun enc ↦ -0x100000000 ≤ signed enc ∧ signed enc < 0x100000000).congr fun n enc ↦ ?_
  rw [Grammar.s33, ← signed_eq]
  constructor
  · rintro ⟨h, rfl, hr⟩
    exact ⟨h, rfl, hr⟩
  · rintro ⟨h, rfl, hr⟩
    exact ⟨h, rfl, hr⟩

end Decoder

end CallGate.Wasm
