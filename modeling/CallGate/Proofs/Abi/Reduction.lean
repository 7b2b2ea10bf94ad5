import CallGate.Abi.ArgType
import CallGate.Number.TwosComplement
import Mathlib.Data.Int.Bitwise
import Mathlib.Data.Int.ModEq
import Mathlib.Tactic.Positivity

/-!
# Reading an integer at a type

An integer is read at a type by reducing it to the range of the type, and of the integer only its
residue modulo two to the width is left. Both halves of this are here: the integer that is read is
congruent to the one that was given (`reduce_modEq`), and integers that are congruent are read as
one and the same (`reduce_eq_of_modEq`), also where they are congruent modulo a higher power than
the type asks for. The sign of the type plays no part. It only chooses the representative.

The representative is the one in the range of the type, and there is no other (`reduce_eq_iff`). So
an integer is read as itself exactly if it is in the range already, and what two types in a row make
of it is a matter of their ranges. Bits come in only at the end: the residue is what the lowest bits
of the integer say, and the highest of these is the sign (`reduce_eq_ofLowestBits`).
-/

namespace CallGate.Abi.ArgType

variable {t u : ArgType} {n : ℤ}

/-! ## Residues -/

theorem coe_modulus (t : ArgType) : (t.modulus : ℤ) = 2 ^ t.bits := by
  cases t <;> rfl

theorem reduce_modEq (t : ArgType) (n : ℤ) : t.reduce n ≡ n [ZMOD 2 ^ t.bits] := by
  rw [← coe_modulus, reduce]
  split
  · rw [Int.ModEq, Int.bmod_emod]
  · exact Int.mod_modEq n t.modulus

theorem reduce_eq_of_modEq {t : ArgType} {width : ℕ} {m n : ℤ} (hwidth : t.bits ≤ width)
    (h : m ≡ n [ZMOD 2 ^ width]) : t.reduce m = t.reduce n := by
  have hmod : m % t.modulus = n % t.modulus := by
    rw [coe_modulus]
    exact h.of_dvd (pow_dvd_pow 2 hwidth)
  rw [reduce, reduce, Int.bmod_def, Int.bmod_def, hmod]

/-! ## Ranges -/

/-- The integers that a type has. -/
def InRange (t : ArgType) (n : ℤ) : Prop :=
  if t.isSigned then -2 ^ (t.bits - 1) ≤ n ∧ n ≤ 2 ^ (t.bits - 1) - 1
  else 0 ≤ n ∧ n ≤ 2 ^ t.bits - 1

instance (t : ArgType) (n : ℤ) : Decidable (t.InRange n) := by
  unfold InRange
  infer_instance

theorem inRange_of_isSigned (h : t.isSigned = true) :
    t.InRange n ↔ -2 ^ (t.bits - 1) ≤ n ∧ n ≤ 2 ^ (t.bits - 1) - 1 := by rw [InRange, if_pos h]

theorem inRange_of_not_isSigned (h : ¬ t.isSigned = true) :
    t.InRange n ↔ 0 ≤ n ∧ n ≤ 2 ^ t.bits - 1 := by rw [InRange, if_neg h]

/-- Half of the values of a type have a clear highest bit. -/
theorem two_mul_half (t : ArgType) : (2 : ℤ) * 2 ^ (t.bits - 1) = 2 ^ t.bits := by
  cases t <;> rfl

theorem inRange_reduce (t : ArgType) (v : ℤ) : t.InRange (t.reduce v) := by
  have hmodulus := coe_modulus t
  have hhalf := two_mul_half t
  have hpos : (0 : ℤ) < 2 ^ (t.bits - 1) := by positivity
  have hmodulus_pos : 0 < t.modulus := by omega
  by_cases h : t.isSigned = true
  · rw [inRange_of_isSigned h, reduce, if_pos h]
    have hlow := Int.le_bmod (x := v) hmodulus_pos
    have hhigh := Int.bmod_lt (x := v) hmodulus_pos
    omega
  · rw [inRange_of_not_isSigned h, reduce, if_neg h]
    have hlow := Int.emod_nonneg v (Int.natCast_ne_zero.mpr hmodulus_pos.ne')
    have hhigh := Int.emod_lt_of_pos v (Int.natCast_pos.mpr hmodulus_pos)
    omega

/-- The range of a type is shorter than its modulus, so that it has each residue once. -/
theorem InRange.eq_of_modEq {m : ℤ} (hm : t.InRange m) (hn : t.InRange n)
    (h : m ≡ n [ZMOD 2 ^ t.bits]) : m = n := by
  have hhalf := two_mul_half t
  have hdistance : |n - m| < 2 ^ t.bits := by
    rw [abs_lt]
    by_cases hsigned : t.isSigned = true
    · rw [inRange_of_isSigned hsigned] at hm hn
      omega
    · rw [inRange_of_not_isSigned hsigned] at hm hn
      omega
  have hzero := Int.eq_zero_of_abs_lt_dvd h.dvd hdistance
  omega

theorem reduce_eq_iff {v : ℤ} : t.reduce v = n ↔ n ≡ v [ZMOD 2 ^ t.bits] ∧ t.InRange n := by
  constructor
  · rintro rfl
    exact ⟨reduce_modEq t v, inRange_reduce t v⟩
  · rintro ⟨hmod, hrange⟩
    exact (inRange_reduce t v).eq_of_modEq hrange ((reduce_modEq t v).trans hmod.symm)

theorem reduce_eq_self_iff : t.reduce n = n ↔ t.InRange n := by
  rw [reduce_eq_iff]
  exact and_iff_right (Int.ModEq.refl n)

/-! ## Two types in a row -/

/-- A wider type has all integers of a narrower one, unless these may be negative and its own may
not. -/
theorem InRange.of_wider (hwidth : u.bits < t.bits) (hsign : t.isSigned = true ∨ u.isSigned = false)
    (h : u.InRange n) : t.InRange n := by
  have hfits : (2 : ℤ) ^ u.bits ≤ 2 ^ (t.bits - 1) :=
    pow_le_pow_right₀ one_le_two (Nat.le_sub_one_of_lt hwidth)
  have ht := two_mul_half t
  have hu := two_mul_half u
  have hpos : (0 : ℤ) < 2 ^ (u.bits - 1) := by positivity
  by_cases hu' : u.isSigned = true
  · have ht' : t.isSigned = true := hsign.resolve_right (by simp [hu'])
    rw [inRange_of_isSigned hu'] at h
    rw [inRange_of_isSigned ht']
    omega
  · rw [inRange_of_not_isSigned hu'] at h
    by_cases ht' : t.isSigned = true
    · rw [inRange_of_isSigned ht']
      omega
    · rw [inRange_of_not_isSigned ht']
      omega

theorem inRange_neg_one : t.InRange (-1) ↔ t.isSigned = true := by
  cases t <;> decide

theorem reduce_reduce_of_le (hwidth : t.bits ≤ u.bits) (v : ℤ) :
    t.reduce (u.reduce v) = t.reduce v :=
  reduce_eq_of_modEq hwidth (reduce_modEq u v)

/-- A wider type takes what a narrower one has read as it is if it has all the integers of the
narrower one, and otherwise not always. -/
theorem reduce_reduce_of_lt (hwidth : u.bits < t.bits) :
    (t.isSigned = true ∨ u.isSigned = false) ↔ ∀ v, t.reduce (u.reduce v) = u.reduce v := by
  constructor
  · intro hsign v
    exact reduce_eq_self_iff.mpr ((inRange_reduce u v).of_wider hwidth hsign)
  · intro h
    by_cases hu : u.isSigned = true
    · -- At a signed type -1 is read as itself, and an unsigned type does not have it.
      have hneg := h (-1)
      rw [reduce_eq_self_iff.mpr (inRange_neg_one.mpr hu), reduce_eq_self_iff,
        inRange_neg_one] at hneg
      exact .inl hneg
    · exact .inr (Bool.eq_false_of_not_eq_true hu)

end CallGate.Abi.ArgType

/-! ## Bits -/

namespace CallGate.Number

variable {width m : ℕ}

theorem bitDifference_mod (width m : ℕ) :
    bitDifference (2 ^ width - 1) m = bitDifference (2 ^ width - 1) (m % 2 ^ width) := by
  simp only [bitDifference, Nat.and_comm _ m, Nat.and_comm _ (m % _),
    Nat.and_two_pow_sub_one_eq_mod, Nat.mod_mod]

/-- Taken out of as many ones, the bits of a number leave what it lacks to the largest one. -/
theorem bitDifference_eq_sub (h : m < 2 ^ width) :
    bitDifference (2 ^ width - 1) m = 2 ^ width - (m + 1) := by
  apply Nat.eq_of_testBit_eq
  intro i
  rw [bitDifference, Nat.and_comm, Nat.and_two_pow_sub_one_eq_mod, Nat.mod_eq_of_lt h,
    Nat.testBit_xor, Nat.testBit_two_pow_sub_one, Nat.testBit_two_pow_sub_succ h]
  by_cases hi : i < width
  · simp [hi]
  · have hclear : m.testBit i = false :=
      Nat.testBit_lt_two_pow (h.trans_le (Nat.pow_le_pow_right two_pos (Nat.le_of_not_lt hi)))
    simp [hi, hclear]

/-- The lowest bits of an integer are its residue, whatever its sign. -/
theorem bitAnd_two_pow_sub_one (n : ℤ) (width : ℕ) :
    bitAnd n ((2 ^ width - 1 : ℕ) : ℤ) = n % 2 ^ width := by
  cases n with
  | ofNat m =>
    change ((m &&& 2 ^ width - 1 : ℕ) : ℤ) = _
    rw [Nat.and_two_pow_sub_one_eq_mod]
    norm_cast
  | negSucc m =>
    change (bitDifference (2 ^ width - 1) m : ℤ) = _
    have hlt := Nat.mod_lt m (Nat.two_pow_pos width)
    have hpos : (0 : ℤ) < 2 ^ width := by positivity
    rw [bitDifference_mod, bitDifference_eq_sub hlt, Int.negSucc_emod m hpos]
    push_cast [Nat.cast_sub (Nat.succ_le_of_lt hlt)]
    omega

theorem shiftRight_ne_zero_iff {n : ℤ} (h : 0 ≤ n) : n >>> width ≠ 0 ↔ 2 ^ width ≤ n := by
  have hpos : (0 : ℤ) < 2 ^ width := by positivity
  have hquotient := Int.ediv_nonneg h hpos.le
  rw [Int.shiftRight_eq_div_pow, Nat.cast_pow, Nat.cast_ofNat, ← one_mul (2 ^ width : ℤ),
    ← Int.le_ediv_iff_mul_le hpos, one_mul]
  omega

end CallGate.Number

namespace CallGate.Abi.ArgType

/-- The value that the lowest bits of an integer, as many as the type is wide, have at the type: at
a signed one, the highest of them stands for a negative number. -/
def ofLowestBits (t : ArgType) (v : ℤ) : ℤ :=
  let raw := Number.bitAnd v (t.modulus - 1)
  if t.isSigned ∧ raw >>> (t.bits - 1) ≠ 0 then raw - t.modulus else raw

theorem bitAnd_modulus_sub_one (t : ArgType) (v : ℤ) :
    Number.bitAnd v (t.modulus - 1) = v % 2 ^ t.bits := by
  rw [← Number.bitAnd_two_pow_sub_one, coe_modulus]
  push_cast [Nat.cast_sub (Nat.one_le_two_pow (n := t.bits))]
  rfl

theorem reduce_eq_ofLowestBits (t : ArgType) (v : ℤ) : t.reduce v = t.ofLowestBits v := by
  have hhalf := two_mul_half t
  have hpos : (0 : ℤ) < 2 ^ t.bits := by positivity
  have hlow := Int.emod_nonneg v hpos.ne'
  have hhigh := Int.emod_lt_of_pos v hpos
  have hmod : v % 2 ^ t.bits ≡ v [ZMOD 2 ^ t.bits] := Int.mod_modEq v _
  rw [reduce_eq_iff, ofLowestBits, bitAnd_modulus_sub_one, coe_modulus]
  simp only [Number.shiftRight_ne_zero_iff hlow]
  split
  · next h => exact ⟨Int.sub_modulus_modEq_iff.mpr hmod, (inRange_of_isSigned h.1).mpr (by omega)⟩
  · next h =>
    refine ⟨hmod, ?_⟩
    by_cases hs : t.isSigned = true
    · have hclear : ¬ 2 ^ (t.bits - 1) ≤ v % 2 ^ t.bits := not_and.mp h hs
      rw [inRange_of_isSigned hs]
      omega
    · rw [inRange_of_not_isSigned hs]
      omega

/-! ## Both together -/

/-- **Reading at a type is reduction to its range.** What an integer of any size is read as at a
type is what its lowest bits say, and it is the one integer in the range of the type that is
congruent to it modulo two to the width. So exactly the integers in the range are read as
themselves. Of two types in a row the second one decides if it is not the wider one. If it is, then
it changes nothing, provided that it is signed or the first one is not; otherwise there is an
integer that it changes. -/
theorem reduce_exact :
    (∀ (t : ArgType) (v : ℤ), t.reduce v = t.ofLowestBits v) ∧
    (∀ (t : ArgType) (v n : ℤ), t.reduce v = n ↔ n ≡ v [ZMOD 2 ^ t.bits] ∧ t.InRange n) ∧
    (∀ (t : ArgType) (n : ℤ), t.reduce n = n ↔ t.InRange n) ∧
    (∀ t u : ArgType, t.bits ≤ u.bits → ∀ v, t.reduce (u.reduce v) = t.reduce v) ∧
    ∀ t u : ArgType, u.bits < t.bits →
      ((t.isSigned = true ∨ u.isSigned = false) ↔ ∀ v, t.reduce (u.reduce v) = u.reduce v) := by
  refine ⟨reduce_eq_ofLowestBits, ?_, ?_, ?_, ?_⟩
  · intro t v n
    exact reduce_eq_iff
  · intro t n
    exact reduce_eq_self_iff
  · intro t u hwidth v
    exact reduce_reduce_of_le hwidth v
  · intro t u hwidth
    exact reduce_reduce_of_lt hwidth

/-- Integers at the ends of a range, just beyond them and far out, and types in a row. -/
theorem reduce_exact_ends :
    u64.reduce (-1) = 2 ^ 64 - 1 ∧ i64.reduce (2 ^ 63) = -2 ^ 63 ∧ i8.reduce (2 ^ 80 - 128) = -128 ∧
      (i8.reduce 127 = 127 ∧ i8.reduce 128 ≠ 128) ∧ u8.ofLowestBits (-3) = u8.reduce (-3) ∧
      u8.reduce (i16.reduce 40000) = u8.reduce 40000 ∧
      i16.reduce (u8.reduce (-1)) = u8.reduce (-1) ∧
      u16.reduce (i8.reduce (-1)) ≠ i8.reduce (-1) := by
  obtain ⟨hbits, hunique, hself, hnarrower, hwider⟩ := reduce_exact
  refine ⟨?_, ?_, ?_, ⟨?_, ?_⟩, (hbits _ _).symm, ?_, ?_, ?_⟩
  · exact (hunique _ _ _).mpr ⟨by decide, by decide⟩
  · exact (hunique _ _ _).mpr ⟨by decide, by decide⟩
  · exact (hunique _ _ _).mpr ⟨by decide, by decide⟩
  · exact (hself _ _).mpr (by decide)
  · exact mt (hself _ _).mp (by decide)
  · exact hnarrower _ _ (by decide) _
  · exact (hwider _ _ (by decide)).mp (by decide) _
  · exact mt (hself _ _).mp (by decide)

end CallGate.Abi.ArgType
