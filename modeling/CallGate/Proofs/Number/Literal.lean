import CallGate.Number.Literal
import Mathlib.Data.Int.Notation
import Mathlib.Data.List.TakeWhile

/-!
# What integer literals denote

A grammar for integer literals that says nothing about how they are read: a sign, the prefix of a
base, and digits, in which single underscores may stand between two digits. `Denotes` relates a text
to the number that it is a literal of, and `readInteger_eq_ok` says that this is what is read. Of the
limit on the number of decimal digits the grammar knows nothing; it is a condition of its own.

## Reading from the left

The grammar makes a numeral longer at its right end, where its value changes by one step, and reading
goes in the same direction. So reading a numeral and what follows it is going on behind the numeral
with its value (`Numeral.digitsFrom_append`), and what was read so far is a numeral at every point,
unless the last character was an underscore (`Started`). White space, signs and prefixes are told
from digits by their first character.
-/

namespace CallGate.Number

open CallGate.Text

/-! ## Grammar -/

/-- Digits of some base, with single underscores between them, and what they amount to. -/
inductive Numeral (base : ℕ) : List Char → ℕ → Prop
  | digit {c : Char} {d : ℕ} (hc : digitValue? base c = some d) : Numeral base [c] d
  | next {cs : List Char} {n : ℕ} {c : Char} {d : ℕ} (hcs : Numeral base cs n)
      (hc : digitValue? base c = some d) : Numeral base (cs ++ [c]) (n * base + d)
  | separated {cs : List Char} {n : ℕ} {c : Char} {d : ℕ} (hcs : Numeral base cs n)
      (hc : digitValue? base c = some d) : Numeral base (cs ++ ['_', c]) (n * base + d)

/-- A sign, which may be missing, and whether it is a minus sign. -/
inductive Sign : List Char → Bool → Prop
  | missing : Sign [] false
  | plus : Sign ['+'] false
  | minus : Sign ['-'] true

/-- The letters that announce a base behind a zero. -/
def baseLetters : List (Char × ℕ) :=
  [('x', 16), ('X', 16), ('o', 8), ('O', 8), ('b', 2), ('B', 2)]

/-- The prefix of a base, which may be missing, and behind which an underscore may stand. -/
inductive Lead (base : ℕ) : List Char → Prop
  | missing : Lead base []
  | plain {c : Char} (hc : (c, base) ∈ baseLetters) : Lead base ['0', c]
  | separated {c : Char} (hc : (c, base) ∈ baseLetters) : Lead base ['0', c, '_']

/-- A text is a literal of an integer in some base. -/
inductive Denotes (base : ℕ) : List Char → ℤ → Prop
  | literal {before sign lead digits after : List Char} {negative : Bool} {n : ℕ}
      (hbefore : ∀ c ∈ before, isWhiteSpace c = true) (hsign : Sign sign negative)
      (hlead : Lead base lead) (hdigits : Numeral base digits n)
      (hafter : ∀ c ∈ after, isWhiteSpace c = true) :
      Denotes base (before ++ (sign ++ (lead ++ (digits ++ after)))) (withSign negative n)

/-- The number of digits of some base in a text. -/
def digitCount (base : ℕ) (cs : List Char) : ℕ := cs.countP fun c ↦ (digitValue? base c).isSome

/-! ## Digits are nothing else -/

theorem decimalValue?_eq_some {c : Char} {d : ℕ} (h : decimalValue? c = some d) :
    ∃ z ∈ decimalZeros, z + d = c.toNat ∧ d < 10 := by
  rw [decimalValue?, Option.map_eq_some_iff] at h
  obtain ⟨z, hz, rfl⟩ := h
  have hrange := List.find?_some hz
  simp only [Bool.and_eq_true, decide_eq_true_eq] at hrange
  exact ⟨z, List.mem_of_find?_eq_some hz, by omega, by omega⟩

theorem not_isWhiteSpace_decimalZeros :
    ∀ z ∈ decimalZeros, ∀ d < 10, isWhiteSpace (Char.ofNat (z + d)) = false := by
  decide +kernel

theorem not_isWhiteSpace_of_letter {c : Char}
    (h : ('a' ≤ c ∧ c ≤ 'z') ∨ ('A' ≤ c ∧ c ≤ 'Z')) : isWhiteSpace c = false := by
  have hrange : 65 ≤ c.toNat ∧ c.toNat ≤ 122 := by
    simp only [Char.le_def, UInt32.le_iff_toNat_le] at h
    change (97 ≤ c.toNat ∧ c.toNat ≤ 122) ∨ (65 ≤ c.toNat ∧ c.toNat ≤ 90) at h
    omega
  have hall : ∀ n < 123, 65 ≤ n → isWhiteSpace (Char.ofNat n) = false := by decide
  simpa using hall c.toNat (by omega) hrange.1

theorem not_isWhiteSpace_of_digit {base d : ℕ} {c : Char} (h : digitValue? base c = some d) :
    isWhiteSpace c = false := by
  rw [digitValue?, Option.filter_eq_some_iff] at h
  obtain ⟨hvalue, -⟩ := h
  cases hdecimal : decimalValue? c with
  | some d' =>
    obtain ⟨z, hz, hc, hd⟩ := decimalValue?_eq_some hdecimal
    simpa [hc] using not_isWhiteSpace_decimalZeros z hz d' hd
  | none =>
    refine not_isWhiteSpace_of_letter ?_
    by_contra hletter
    rw [not_or] at hletter
    rw [hdecimal] at hvalue
    simp only [hletter.1, hletter.2, if_false] at hvalue
    cases hvalue

@[simp] theorem digitValue?_underscore (base : ℕ) : digitValue? base '_' = none := rfl

@[simp] theorem digitValue?_plus (base : ℕ) : digitValue? base '+' = none := rfl

@[simp] theorem digitValue?_minus (base : ℕ) : digitValue? base '-' = none := rfl

/-- The letter of a prefix is no digit of the base that it announces, no underscore and no white
space. -/
theorem of_mem_baseLetters {c : Char} {base : ℕ} (h : (c, base) ∈ baseLetters) :
    digitValue? base c = none ∧ c ≠ '_' ∧ isWhiteSpace c = false := by
  have hall : ∀ p ∈ baseLetters,
      digitValue? p.2 p.1 = none ∧ p.1 ≠ '_' ∧ isWhiteSpace p.1 = false := by decide
  exact hall (c, base) h

/-! ## Digits -/

section

variable {base n d v k : ℕ} {c : Char} {cs rest : List Char} {b : Bool}

theorem digitsFrom_digit (h : digitValue? base c = some d) :
    digitsFrom base v k b (c :: cs) = digitsFrom base (v * base + d) (k + 1) true cs := by
  have hc : (c == '_') = false := by
    rw [beq_eq_false_iff_ne]
    rintro rfl
    cases h
  rw [digitsFrom, hc, Bool.and_false, h]
  rfl

theorem digitsFrom_underscore :
    digitsFrom base v k true ('_' :: cs) = digitsFrom base v k false cs := rfl

theorem digitsFrom_of_isWhiteSpace (h : ∀ c ∈ rest, isWhiteSpace c = true) :
    digitsFrom base v k true rest = some ⟨v, k, rest⟩ := by
  cases rest with
  | nil => rfl
  | cons c rest =>
    have hspace : isWhiteSpace c = true := h c List.mem_cons_self
    have hc : (c == '_') = false := by
      rw [beq_eq_false_iff_ne]
      rintro rfl
      cases hspace
    have hdigit : digitValue? base c = none := by
      cases hd : digitValue? base c with
      | none => rfl
      | some d => exact absurd (not_isWhiteSpace_of_digit hd) (by simp [hspace])
    rw [digitsFrom, hc, hdigit]
    rfl

namespace Numeral

/-- Reading a numeral and more is going on behind the numeral. -/
theorem digitsFrom_append (h : Numeral base cs n) (rest : List Char) :
    digitsFrom base 0 0 false (cs ++ rest) = digitsFrom base n (digitCount base cs) true rest := by
  induction h generalizing rest with
  | digit hc => simp [digitsFrom_digit hc, digitCount, hc]
  | next hcs hc ih =>
    rw [List.append_assoc, ih, List.singleton_append, digitsFrom_digit hc]
    simp [digitCount, hc]
  | separated hcs hc ih =>
    rw [List.append_assoc, ih, List.cons_append, List.singleton_append, digitsFrom_underscore,
      digitsFrom_digit hc]
    simp [digitCount, hc]

theorem eq_underscore_or_digit (h : Numeral base cs n) (hc : c ∈ cs) :
    c = '_' ∨ (digitValue? base c).isSome = true := by
  induction h with
  | digit hd =>
    rw [List.mem_singleton.mp hc, hd]
    exact .inr rfl
  | next hcs hd ih =>
    rcases List.mem_append.mp hc with hc | hc
    · exact ih hc
    · rw [List.mem_singleton.mp hc, hd]
      exact .inr rfl
  | separated hcs hd ih =>
    rcases List.mem_append.mp hc with hc | hc
    · exact ih hc
    · rcases List.mem_cons.mp hc with rfl | hc
      · exact .inl rfl
      · rw [List.mem_singleton.mp hc, hd]
        exact .inr rfl

theorem exists_head (h : Numeral base cs n) :
    ∃ c d cs', cs = c :: cs' ∧ digitValue? base c = some d := by
  induction h with
  | digit hc => exact ⟨_, _, [], rfl, hc⟩
  | next hcs hc ih =>
    obtain ⟨c', d', cs', rfl, hc'⟩ := ih
    exact ⟨c', d', _, rfl, hc'⟩
  | separated hcs hc ih =>
    obtain ⟨c', d', cs', rfl, hc'⟩ := ih
    exact ⟨c', d', _, rfl, hc'⟩

end Numeral

/-- What has been read while a numeral is read, and whether a digit came last. -/
inductive Started (base : ℕ) : Bool → List Char → ℕ → Prop
  | nothing : Started base false [] 0
  | numeral {cs : List Char} {n : ℕ} (h : Numeral base cs n) : Started base true cs n
  | separator {cs : List Char} {n : ℕ} (h : Numeral base cs n) : Started base false (cs ++ ['_']) n

namespace Started

theorem digit (h : Started base b cs n) (hc : digitValue? base c = some d) :
    Numeral base (cs ++ [c]) (n * base + d) := by
  cases h with
  | nothing => simpa using Numeral.digit hc
  | numeral hcs => exact .next hcs hc
  | separator hcs => simpa using Numeral.separated hcs hc

/-- What is read behind something makes it a numeral. -/
theorem of_digitsFrom {done : List Char} {r : Digits} (h : Started base b done v)
    (hr : digitsFrom base v k b cs = some r) :
    ∃ taken, cs = taken ++ r.rest ∧ Numeral base (done ++ taken) r.value := by
  -- The induction is on what is still to be read, and `Started` tells of what has been.
  induction cs generalizing b done v k with
  | nil =>
    cases h with
    | numeral hdone =>
      cases hr
      exact ⟨[], rfl, by simpa using hdone⟩
    | nothing => cases hr
    | separator _ => cases hr
  | cons c cs ih =>
    by_cases hunderscore : b = true ∧ c = '_'
    · obtain ⟨rfl, rfl⟩ := hunderscore
      cases h with
      | numeral hdone =>
        obtain ⟨taken, rfl, htaken⟩ := ih (.separator hdone) hr
        exact ⟨'_' :: taken, rfl, by simpa using htaken⟩
    · cases hc : digitValue? base c with
      | some d =>
        rw [digitsFrom_digit hc] at hr
        obtain ⟨taken, rfl, htaken⟩ := ih (.numeral (h.digit hc)) hr
        exact ⟨c :: taken, rfl, by simpa using htaken⟩
      | none =>
        have hskip : (b && c == '_') = false := by
          simpa [Bool.and_eq_false_imp] using hunderscore
        rw [digitsFrom, hskip, hc] at hr
        cases h with
        | numeral hdone =>
          cases hr
          exact ⟨[], rfl, by simpa using hdone⟩
        | nothing => cases hr
        | separator _ => cases hr

end Started

end

/-! ## Signs and prefixes -/

section

variable {base n : ℕ} {negative : Bool} {sign lead digits after cs rest : List Char}

theorem splitSign_append (h : Sign sign negative) (hrest : ∀ c ∈ rest.head?, c ≠ '+' ∧ c ≠ '-') :
    splitSign (sign ++ rest) = (negative, rest) := by
  cases h with
  | plus => rfl
  | minus => rfl
  | missing =>
    cases rest with
    | nil => rfl
    | cons c rest =>
      obtain ⟨hplus, hminus⟩ := hrest c rfl
      rw [List.nil_append, splitSign]
      · rintro _ ⟨⟩
        exact hminus rfl
      · rintro _ ⟨⟩
        exact hplus rfl

theorem exists_sign (cs : List Char) :
    ∃ sign, Sign sign (splitSign cs).1 ∧ cs = sign ++ (splitSign cs).2 := by
  unfold splitSign
  split
  · exact ⟨['-'], .minus, rfl⟩
  · exact ⟨['+'], .plus, rfl⟩
  · exact ⟨[], .missing, rfl⟩

theorem splitBase?_eq_some :
    splitBase? cs = some (base, rest) ↔ ∃ c, cs = '0' :: c :: rest ∧ (c, base) ∈ baseLetters := by
  constructor
  · intro h
    unfold splitBase? at h
    split at h
    · next c rest' =>
      refine ⟨c, ?_⟩
      split at h
      · next hc =>
        cases h
        rcases hc with rfl | rfl <;> simp [baseLetters]
      · split at h
        · next hc =>
          cases h
          rcases hc with rfl | rfl <;> simp [baseLetters]
        · split at h
          · next hc =>
            cases h
            rcases hc with rfl | rfl <;> simp [baseLetters]
          · cases h
    · cases h
  · rintro ⟨c, rfl, hc⟩
    have hall : ∀ p ∈ baseLetters, ∀ rest, splitBase? ('0' :: p.1 :: rest) = some (p.2, rest) := by
      simp [baseLetters, splitBase?]
    exact hall (c, base) hc rest

theorem dropBase_append (h : Lead base lead) (hdigits : Numeral base digits n)
    (hafter : ∀ c ∈ after, isWhiteSpace c = true) :
    dropBase base (lead ++ (digits ++ after)) = digits ++ after := by
  obtain ⟨c₀, d₀, digits', rfl, hc₀⟩ := hdigits.exists_head
  cases h with
  | @plain c hc =>
    have hbase : splitBase? ('0' :: c :: (c₀ :: digits' ++ after)) =
        some (base, c₀ :: digits' ++ after) := splitBase?_eq_some.mpr ⟨c, rfl, hc⟩
    change dropBase base ('0' :: c :: (c₀ :: digits' ++ after)) = _
    simp only [dropBase, hbase, if_true]
    split
    · next h =>
      cases h
      cases hc₀
    · rfl
  | @separated c hc =>
    have hbase : splitBase? ('0' :: c :: '_' :: (c₀ :: digits' ++ after)) =
        some (base, '_' :: (c₀ :: digits' ++ after)) := splitBase?_eq_some.mpr ⟨c, rfl, hc⟩
    change dropBase base ('0' :: c :: '_' :: (c₀ :: digits' ++ after)) = _
    simp only [dropBase, hbase, if_true]
  | missing =>
    rw [List.nil_append, dropBase]
    split
    · next announced rest hsplit =>
      -- What looks like a prefix is that of another base, or else its letter would be a digit.
      rw [if_neg]
      rintro rfl
      obtain ⟨c, hcs, hc⟩ := splitBase?_eq_some.mp hsplit
      obtain ⟨hdigit, hunderscore, hspace⟩ := of_mem_baseLetters hc
      have hmem : c ∈ c₀ :: digits' ++ after := by
        rw [hcs]
        exact List.mem_cons_of_mem _ List.mem_cons_self
      rcases List.mem_append.mp hmem with hmem | hmem
      · rcases hdigits.eq_underscore_or_digit hmem with rfl | hsome
        · exact hunderscore rfl
        · rw [hdigit] at hsome
          cases hsome
      · rw [hafter c hmem] at hspace
        cases hspace
    · rfl

theorem exists_lead (base : ℕ) (cs : List Char) :
    ∃ lead, Lead base lead ∧ cs = lead ++ dropBase base cs := by
  unfold dropBase
  split
  · next announced rest hsplit =>
    split
    · next hbase =>
      subst hbase
      obtain ⟨c, rfl, hc⟩ := splitBase?_eq_some.mp hsplit
      split
      · exact ⟨_, .separated hc, rfl⟩
      · exact ⟨_, .plain hc, rfl⟩
    · exact ⟨[], .missing, rfl⟩
  · exact ⟨[], .missing, rfl⟩

end

/-! ## Literals -/

section

variable {base : ℕ} {before sign lead digits after : List Char} {negative : Bool} {n : ℕ}

theorem Lead.eq_nil (h : Lead 10 lead) : lead = [] := by
  have hten : ∀ p ∈ baseLetters, p.2 ≠ 10 := by decide
  cases h with
  | missing => rfl
  | plain hc => exact absurd rfl (hten _ hc)
  | separated hc => exact absurd rfl (hten _ hc)

theorem digitCount_append (cs cs' : List Char) :
    digitCount base (cs ++ cs') = digitCount base cs + digitCount base cs' := List.countP_append

theorem digitCount_of_isWhiteSpace (h : ∀ c ∈ after, isWhiteSpace c = true) :
    digitCount base after = 0 := by
  rw [digitCount, List.countP_eq_zero]
  intro c hc hdigit
  obtain ⟨d, hd⟩ := Option.isSome_iff_exists.mp hdigit
  exact absurd (h c hc) (by simp [not_isWhiteSpace_of_digit hd])

theorem Sign.digitCount_eq (h : Sign sign negative) : digitCount base sign = 0 := by
  cases h <;> simp [digitCount]

/-- What stands in front of the digits begins with no white space, if it does not consist of the
digits themselves. -/
theorem dropWhile_literal (hbefore : ∀ c ∈ before, isWhiteSpace c = true)
    (hsign : Sign sign negative) (hlead : Lead base lead) (hdigits : Numeral base digits n) :
    (before ++ (sign ++ (lead ++ (digits ++ after)))).dropWhile isWhiteSpace =
      sign ++ (lead ++ (digits ++ after)) := by
  obtain ⟨c, d, digits', rfl, hc⟩ := hdigits.exists_head
  have hspace : isWhiteSpace c = false := not_isWhiteSpace_of_digit hc
  have hzero : isWhiteSpace '0' = false := rfl
  rw [List.dropWhile_append_of_pos hbefore]
  cases hsign with
  | plus => rfl
  | minus => rfl
  | missing => cases hlead <;> simp [hspace, hzero]

theorem head?_unsigned (hlead : Lead base lead) (hdigits : Numeral base digits n) :
    ∀ c ∈ (lead ++ (digits ++ after)).head?, c ≠ '+' ∧ c ≠ '-' := by
  obtain ⟨c, d, digits', rfl, hc⟩ := hdigits.exists_head
  cases hlead with
  | missing =>
    rintro _ ⟨⟩
    constructor
    · rintro rfl
      cases hc
    · rintro rfl
      cases hc
  | plain _ =>
    rintro _ ⟨⟩
    decide
  | separated _ =>
    rintro _ ⟨⟩
    decide

/-- A literal is read, unless it has too many digits. -/
theorem readInteger_literal (hbefore : ∀ c ∈ before, isWhiteSpace c = true)
    (hsign : Sign sign negative) (hlead : Lead base lead) (hdigits : Numeral base digits n)
    (hafter : ∀ c ∈ after, isWhiteSpace c = true) :
    readInteger base (before ++ (sign ++ (lead ++ (digits ++ after)))) =
      if base = 10 ∧ digitLimit < digitCount base digits then
        .error (.tooManyDigits (digitCount base digits))
      else .ok (withSign negative n) := by
  have hall : after.all isWhiteSpace = true := List.all_eq_true.mpr hafter
  simp only [readInteger, dropWhile_literal hbefore hsign hlead hdigits,
    splitSign_append hsign (head?_unsigned hlead hdigits), dropBase_append hlead hdigits hafter,
    hdigits.digitsFrom_append, digitsFrom_of_isWhiteSpace hafter, hall, if_true]

theorem denotes_of_readInteger {cs : List Char} {n : ℤ} (h : readInteger base cs = .ok n) :
    Denotes base cs n := by
  obtain ⟨sign, hsign, hcs⟩ := exists_sign (cs.dropWhile isWhiteSpace)
  obtain ⟨lead, hlead, hunsigned⟩ := exists_lead base (splitSign (cs.dropWhile isWhiteSpace)).2
  simp only [readInteger] at h
  split at h
  · cases h
  · next r hr =>
    obtain ⟨digits, hdigits, hnumeral⟩ := Started.nothing.of_digitsFrom hr
    split at h
    · cases h
    · split at h
      · next hall =>
        cases h
        have hafter : ∀ c ∈ r.rest, isWhiteSpace c = true := List.all_eq_true.mp hall
        have hbefore : ∀ c ∈ cs.takeWhile isWhiteSpace, isWhiteSpace c = true :=
          fun c hc ↦ List.mem_takeWhile_imp hc
        have hliteral := Denotes.literal hbefore hsign hlead hnumeral hafter
        rwa [List.nil_append, ← hdigits, ← hunsigned, ← hcs, List.takeWhile_append_dropWhile]
          at hliteral
      · cases h

end

theorem Denotes.ne_nil {base : ℕ} {cs : List Char} {n : ℤ} (h : Denotes base cs n) : cs ≠ [] := by
  obtain ⟨-, -, -, hdigits, -⟩ := h
  obtain ⟨c, d, digits', rfl, -⟩ := hdigits.exists_head
  simp

/-- **What is read are the literals.** In base ten they may not have too many digits. -/
theorem readInteger_eq_ok {base : ℕ} {cs : List Char} {n : ℤ} :
    readInteger base cs = .ok n ↔
      Denotes base cs n ∧ (base = 10 → digitCount 10 cs ≤ digitLimit) := by
  constructor
  · intro h
    refine ⟨denotes_of_readInteger h, ?_⟩
    rintro rfl
    obtain ⟨hbefore, hsign, hlead, hdigits, hafter⟩ := denotes_of_readInteger h
    rw [readInteger_literal hbefore hsign hlead hdigits hafter] at h
    split at h
    · cases h
    · next hlimit =>
      rw [hlead.eq_nil]
      simp only [digitCount_append, digitCount_of_isWhiteSpace hbefore, hsign.digitCount_eq,
        digitCount_of_isWhiteSpace hafter, List.nil_append]
      omega
  · rintro ⟨⟨hbefore, hsign, hlead, hdigits, hafter⟩, hlimit⟩
    rw [readInteger_literal hbefore hsign hlead hdigits hafter, if_neg]
    rintro ⟨rfl, hmany⟩
    have hcount := hlimit rfl
    simp only [digitCount_append] at hcount
    omega

/-- The decimal digits of a number are a literal of it. -/
theorem numeral_toDigits (n : ℕ) : Numeral 10 (Nat.toDigits 10 n) n := by
  have hdigit : ∀ d < 10, digitValue? 10 d.digitChar = some d := by decide
  induction n using Nat.strongRecOn with
  | ind n ih =>
    by_cases hn : n < 10
    · rw [Nat.toDigits_of_lt_base hn]
      exact .digit (hdigit n hn)
    · have hvalue : n / 10 * 10 + n % 10 = n := Nat.div_add_mod' n 10
      have hnext := (ih (n / 10) (by omega)).next (hdigit (n % 10) (by omega))
      rw [Nat.toDigits_of_base_le (by omega) (by omega)]
      rwa [hvalue] at hnext

end CallGate.Number
