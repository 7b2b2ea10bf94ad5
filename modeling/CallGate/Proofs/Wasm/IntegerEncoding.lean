import CallGate.Proofs.Wasm.Integer
import Mathlib.Algebra.BigOperators.Fin

/-!
# The encodings of an integer

An integer can be padded, so that it has several encodings, but of each length it has one at most:
the groups of seven bits are the digits of a number to base 128, and the framing says which of the
bytes is the last one. `u32_iff` and `s33_iff` list them. A number that is not negative is written
in every length that has place for it, from one byte up to five. A signed one is written as the
number that it is congruent to, with one bit of the place for its sign.
-/

namespace CallGate.Wasm.Grammar

/-! ## Values -/

theorem sevenBits_cons (b : UInt8) (enc : List UInt8) :
    sevenBits (b :: enc) = b.toNat % 128 + 128 * sevenBits enc := by
  rw [sevenBits, sevenBits, List.map_cons, Nat.ofDigits_cons]

/-- The value as a sum over the bytes, each at its own weight. -/
theorem sevenBits_eq_sum (enc : List UInt8) :
    sevenBits enc = ∑ i : Fin enc.length, (enc.get i).toNat % 128 * 2 ^ (7 * (i : ℕ)) := by
  induction enc with
  | nil => rfl
  | cons b enc ih =>
    rw [sevenBits_cons, ih, Finset.mul_sum]
    simp only [List.length_cons]
    rw [Fin.sum_univ_succ]
    congr 1
    · simp
    · refine Finset.sum_congr rfl fun i _ ↦ ?_
      simp only [List.get_eq_getElem, Fin.val_succ, List.getElem_cons_succ, Nat.mul_add, mul_one,
        pow_add]
      ring

/-! ## Digits -/

/-- The lowest groups of seven bits of a number, as many as are asked for. -/
def groups : (count n : ℕ) → List UInt8
  | 0, _ => []
  | 1, n => [.ofNat (n % 128)]
  | count + 2, n => .ofNat (n % 128 + 128) :: groups (count + 1) (n / 128)

theorem length_groups (count n : ℕ) : (groups count n).length = count := by
  fun_induction groups count n with
  | case1 => rfl
  | case2 => rfl
  | case3 n count ih => rw [List.length_cons, ih]

theorem toNat_lastGroup (n : ℕ) : (UInt8.ofNat (n % 128)).toNat = n % 128 := by
  rw [UInt8.toNat_ofNat']
  omega

theorem toNat_otherGroup (n : ℕ) : (UInt8.ofNat (n % 128 + 128)).toNat = n % 128 + 128 := by
  rw [UInt8.toNat_ofNat']
  omega

theorem leb128_groups (count n : ℕ) : leb128 (count + 1) (groups (count + 1) n) := by
  induction count generalizing n with
  | zero =>
    refine leb128_cons.mpr (.inl ⟨?_, rfl⟩)
    rw [UInt8.lt_iff_toNat_lt, toNat_lastGroup]
    exact Nat.mod_lt n (by decide)
  | succ count ih =>
    refine leb128_cons.mpr (.inr ⟨?_, ih (n / 128)⟩)
    rw [UInt8.le_iff_toNat_le, toNat_otherGroup]
    exact Nat.le_add_left 128 (n % 128)

theorem sevenBits_groups {count n : ℕ} (h : n < 128 ^ count) : sevenBits (groups count n) = n := by
  fun_induction groups count n with
  | case1 n => exact (Nat.lt_one_iff.mp h).symm
  | case2 n =>
    rw [sevenBits_cons, toNat_lastGroup]
    simp only [sevenBits, List.map_nil, Nat.ofDigits_nil]
    omega
  | case3 n count ih =>
    rw [sevenBits_cons, toNat_otherGroup, ih (Nat.div_lt_of_lt_mul (by rwa [← pow_succ']))]
    omega

theorem sevenBits_lt (enc : List UInt8) : sevenBits enc < 128 ^ enc.length := by
  induction enc with
  | nil => exact Nat.one_pos
  | cons b enc ih =>
    rw [sevenBits_cons, List.length_cons, pow_succ']
    omega

/-- The framing leaves no choice: the bytes are the groups of what they stand for. -/
theorem eq_groups_of_leb128 {most : ℕ} {enc : List UInt8} (h : leb128 most enc) :
    groups enc.length (sevenBits enc) = enc := by
  induction enc generalizing most with
  | nil => exact absurd h (not_leb128_nil most)
  | cons b enc ih =>
    cases most with
    | zero => exact absurd h (not_leb128_zero _)
    | succ most =>
      rcases leb128_cons.mp h with ⟨hlast, rfl⟩ | ⟨hmore, hrest⟩
      · have hlast : b.toNat < 128 := UInt8.lt_iff_toNat_lt.mp hlast
        change [UInt8.ofNat ((b.toNat % 128 + 128 * 0) % 128)] = [b]
        rw [Nat.mul_zero, Nat.add_zero, Nat.mod_mod, Nat.mod_eq_of_lt hlast, UInt8.ofNat_toNat]
      · have hmore : 128 ≤ b.toNat := UInt8.le_iff_toNat_le.mp hmore
        have hbyte := b.toNat_lt
        cases enc with
        | nil => exact absurd hrest (not_leb128_nil most)
        | cons c enc =>
          have hfirst : (b.toNat % 128 + 128 * sevenBits (c :: enc)) % 128 + 128 = b.toNat := by
            omega
          have hothers : (b.toNat % 128 + 128 * sevenBits (c :: enc)) / 128 =
              sevenBits (c :: enc) := by omega
          rw [sevenBits_cons, List.length_cons, List.length_cons, groups, hfirst, hothers,
            UInt8.ofNat_toNat, ← List.length_cons (a := c), ih hrest]

theorem leb128_iff {most : ℕ} {enc : List UInt8} :
    leb128 most enc ↔ 1 ≤ enc.length ∧ enc.length ≤ most ∧
      groups enc.length (sevenBits enc) = enc := by
  constructor
  · intro h
    refine ⟨?_, ?_, eq_groups_of_leb128 h⟩
    · rcases enc with - | ⟨b, enc⟩
      · exact absurd h (not_leb128_nil most)
      · exact Nat.le_add_left 1 enc.length
    · obtain ⟨more, last, rfl, hlen, -, -⟩ := h
      rwa [List.length_append, List.length_singleton]
  · rintro ⟨hone, hmost, heq⟩
    obtain ⟨count, hcount⟩ := Nat.exists_eq_add_of_le' hone
    rw [← heq, hcount]
    obtain ⟨more, last, heq, hlen, hmore, hlast⟩ := leb128_groups count (sevenBits enc)
    exact ⟨more, last, heq, by omega, hmore, hlast⟩

/-! ## The encodings of a number -/

/-- A number is written in each length, up to five bytes, that has place for it. -/
theorem u32_iff {n : ℕ} {enc : List UInt8} :
    u32 n enc ↔ 1 ≤ enc.length ∧ enc.length ≤ 5 ∧ n < 2 ^ (7 * enc.length) ∧ n < 2 ^ 32 ∧
      enc = groups enc.length n := by
  rw [u32, leb128_iff, pow_mul]
  constructor
  · rintro ⟨⟨hone, hmost, heq⟩, rfl, hrange⟩
    exact ⟨hone, hmost, sevenBits_lt enc, hrange, heq.symm⟩
  · rintro ⟨hone, hmost, hfits, hrange, heq⟩
    have hvalue : sevenBits enc = n := by
      rw [heq]
      exact sevenBits_groups hfits
    exact ⟨⟨hone, hmost, by rw [hvalue, ← heq]⟩, hvalue.symm, hrange⟩

/-- The sign of an encoding is the highest bit of the number that the groups make up. -/
theorem testBit_getLastD_groups {count n : ℕ} (h : n < 128 ^ (count + 1)) :
    ((groups (count + 1) n).getLastD 0).toNat.testBit 6 = decide (64 * 128 ^ count ≤ n) := by
  induction count generalizing n with
  | zero =>
    have hlast : ((groups 1 n).getLastD 0).toNat = n % 128 := toNat_lastGroup n
    rw [hlast, Nat.testBit_eq_decide_div_mod_eq, decide_eq_decide]
    omega
  | succ count ih =>
    have hlast : (groups (count + 2) n).getLastD 0 = (groups (count + 1) (n / 128)).getLastD 0 := by
      have hlength := length_groups (count + 1) (n / 128)
      rw [groups, List.getLastD_cons]
      generalize groups (count + 1) (n / 128) = rest at hlength
      cases rest with
      | nil => cases hlength
      | cons => rfl
    rw [hlast, ih (Nat.div_lt_of_lt_mul (by rwa [← pow_succ'])), decide_eq_decide,
      Nat.le_div_iff_mul_le (by decide), mul_assoc, ← pow_succ]

/-- A number below a modulus, with its upper half counted as negative, is the residue of what it
then stands for. -/
theorem eq_signed_iff {half u : ℕ} (hu : u < 2 * half) (n : ℤ) :
    n = u - (if half ≤ u then (2 * half : ℤ) else 0) ↔
      (-half ≤ n ∧ n < half) ∧ u = (n % (2 * half)).toNat := by
  have hresidue (hlow : -(half : ℤ) ≤ n) (hhigh : n < half) :
      n % (2 * half) = if 0 ≤ n then n else n + 2 * half := by
    split
    · exact Int.emod_eq_of_lt (by omega) (by omega)
    · rw [← Int.add_emod_right]
      exact Int.emod_eq_of_lt (by omega) (by omega)
  constructor
  · intro hn
    have hrange : -(half : ℤ) ≤ n ∧ n < half := by split at hn <;> omega
    refine ⟨hrange, ?_⟩
    rw [hresidue hrange.1 hrange.2]
    split at hn <;> split <;> omega
  · rintro ⟨⟨hlow, hhigh⟩, hn⟩
    rw [hresidue hlow hhigh] at hn
    split at hn <;> split <;> omega

/-- A signed number is written in each length, up to five bytes, that has place for it and its
sign. -/
theorem s33_iff {n : ℤ} {enc : List UInt8} :
    s33 n enc ↔ 1 ≤ enc.length ∧ enc.length ≤ 5 ∧
      (-2 ^ (7 * enc.length - 1) ≤ n ∧ n < 2 ^ (7 * enc.length - 1)) ∧
      (-2 ^ 32 ≤ n ∧ n < 2 ^ 32) ∧ enc = groups enc.length (n % 2 ^ (7 * enc.length)).toNat := by
  rw [s33, leb128_iff]
  rcases hlength : enc.length with - | count
  · simp
  have hpow : 128 ^ (count + 1) = 2 * (64 * 128 ^ count) := by rw [pow_succ']; omega
  have hwhole : (2 : ℤ) ^ (7 * (count + 1)) = 2 * (64 * 128 ^ count : ℕ) := by
    rw [pow_mul]
    exact_mod_cast hpow
  have hhalf : (2 : ℤ) ^ (7 * (count + 1) - 1) = (64 * 128 ^ count : ℕ) := by
    rw [show 7 * (count + 1) - 1 = 6 + 7 * count by omega, pow_add, pow_mul]
    norm_num
  have hsigned {u : ℕ} (hu : u < 128 ^ (count + 1)) (heq : groups (count + 1) u = enc) :
      n = u - (if (enc.getLastD 0).toNat.testBit 6 then 2 ^ (7 * (count + 1)) else 0) ↔
        (-2 ^ (7 * (count + 1) - 1) ≤ n ∧ n < 2 ^ (7 * (count + 1) - 1)) ∧
          u = (n % 2 ^ (7 * (count + 1))).toNat := by
    rw [hhalf, hwhole, ← eq_signed_iff (hpow ▸ hu), ← heq, testBit_getLastD_groups hu]
    simp only [decide_eq_true_eq]
  constructor
  · rintro ⟨⟨hone, hmost, heq⟩, hvalue, hrange⟩
    obtain ⟨hfits, hresidue⟩ := (hsigned (hlength ▸ sevenBits_lt enc) heq).mp hvalue
    exact ⟨hone, hmost, hfits, hrange, by rw [← hresidue, heq]⟩
  · rintro ⟨hone, hmost, hfits, hrange, heq⟩
    have hlt : (n % 2 ^ (7 * (count + 1))).toNat < 128 ^ (count + 1) := by
      have hpos : (0 : ℤ) < 2 ^ (7 * (count + 1)) := by positivity
      have hresidue := Int.emod_lt_of_pos n hpos
      omega
    have hvalue : sevenBits enc = (n % 2 ^ (7 * (count + 1))).toNat := by
      rw [heq]
      exact sevenBits_groups hlt
    rw [hvalue]
    exact ⟨⟨hone, hmost, heq.symm⟩, (hsigned hlt heq.symm).mpr ⟨hfits, rfl⟩, hrange⟩

theorem existsUnique_u32 {n count : ℕ} (hone : 1 ≤ count) (hmost : count ≤ 5)
    (hfits : n < 2 ^ (7 * count)) (hrange : n < 2 ^ 32) :
    ∃! enc, enc.length = count ∧ u32 n enc := by
  have hlength := length_groups count n
  refine ⟨groups count n, ⟨hlength, u32_iff.mpr ?_⟩, ?_⟩
  · rw [hlength]
    exact ⟨hone, hmost, hfits, hrange, rfl⟩
  · rintro enc ⟨rfl, henc⟩
    exact (u32_iff.mp henc).2.2.2.2

theorem existsUnique_s33 {n : ℤ} {count : ℕ} (hone : 1 ≤ count) (hmost : count ≤ 5)
    (hfits : -2 ^ (7 * count - 1) ≤ n ∧ n < 2 ^ (7 * count - 1))
    (hrange : -2 ^ 32 ≤ n ∧ n < 2 ^ 32) : ∃! enc, enc.length = count ∧ s33 n enc := by
  have hlength := length_groups count (n % 2 ^ (7 * count)).toNat
  refine ⟨groups count (n % 2 ^ (7 * count)).toNat, ⟨hlength, s33_iff.mpr ?_⟩, ?_⟩
  · rw [hlength]
    exact ⟨hone, hmost, hfits, hrange, rfl⟩
  · rintro enc ⟨rfl, henc⟩
    exact (s33_iff.mp henc).2.2.2.2

end CallGate.Wasm.Grammar
