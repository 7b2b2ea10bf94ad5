import CallGate.Proofs.Wasm.CursorReading
import CallGate.Proofs.Wasm.IntegerEncoding
import Mathlib.Data.Nat.Bitwise

/-!
# What integers a cursor reads

A cursor takes the groups of an integer one byte at a time, and nothing keeps its position and its
stop within the bytes it is on. So an attempt ends in one of three ways. The groups of an integer
stand where the cursor is (`Stands`) and their value is in the range; or the cursor looks for one of
the groups in front of its stop and there is no byte (`CutShort`); or the bytes are malformed. The
second way is closed to a cursor inside its bytes (`InBytes.not_cutShort`).

`integers_exact` says which of the three it is, for every cursor. It also says that an integer can
be computed while its groups are read, as a loop does that keeps what it has so far and the weight
of the next group. The loop for signed integers counts the group before it looks at whether it is
the last one, since the sign has the weight of the group that would come next. The loop for unsigned
ones counts it after that.
-/

namespace CallGate.Wasm

open Data

namespace ByteCursor

variable {c c' : ByteCursor} {b : UInt8} {enc : List UInt8}

/-! ## Bytes at a cursor -/

/-- Some bytes stand where a cursor is, each at its position and all of them before the stop. -/
def Stands (c : ByteCursor) (enc : List UInt8) : Prop :=
  ∀ i (h : i < enc.length), c.pos + i < c.stop ∧ itemAt c.data (c.pos + i) = .ok enc[i]

/-- The next byte should be there, as the stop has not come yet, but there is none. -/
def LacksByte (c : ByteCursor) : Prop :=
  c.pos < c.stop ∧ ∃ fault, itemAt c.data c.pos = .error fault

theorem stands_nil : c.Stands [] := fun _ h ↦ absurd h (Nat.not_lt_zero _)

theorem stands_singleton : c.Stands [b] ↔ c.pos < c.stop ∧ itemAt c.data c.pos = .ok b := by
  constructor
  · intro h
    simpa using h 0 Nat.one_pos
  · intro h i hi
    obtain rfl := Nat.lt_one_iff.mp hi
    simpa using h

theorem stands_cons : c.Stands (b :: enc) ↔ c.Stands [b] ∧ (c.behind [b]).Stands enc := by
  have hplace (i : ℕ) : (c.behind [b]).pos + i = c.pos + (i + 1 : ℕ) := by
    simp only [behind, List.length_singleton]
    omega
  constructor
  · intro h
    refine ⟨stands_singleton.mpr (by simpa using h 0 (Nat.succ_pos _)), fun i hi ↦ ?_⟩
    rw [hplace]
    exact h (i + 1) (Nat.succ_lt_succ hi)
  · rintro ⟨hfirst, hrest⟩ i hi
    cases i with
    | zero => simpa using stands_singleton.mp hfirst
    | succ i =>
      rw [← hplace]
      exact hrest i (Nat.lt_of_succ_lt_succ hi)

theorem behind_nil : c.behind [] = c := by simp [behind]

theorem behind_cons : c.behind (b :: enc) = (c.behind [b]).behind enc := by
  simp only [behind, List.length_cons, List.length_nil, mk.injEq, true_and, and_true]
  omega

theorem InBytes.exists_item (hc : c.InBytes) (hstop : c.pos < c.stop) :
    ∃ b, itemAt c.data c.pos = .ok b := by
  have hlength : 0 < c.window.bytes.length := by
    have hle := hc.stop_le
    have hpos := hc.pos_nonneg
    simp only [window, List.length_take, List.length_drop]
    omega
  obtain ⟨b, rest, hbytes⟩ := List.exists_cons_of_length_pos hlength
  rcases (hc.shows_window hstop.le).itemAt_eq hbytes with hitem | ⟨-, hlong⟩
  · exact ⟨b, hitem⟩
  · exact absurd hc.length_lt (Nat.not_lt.mpr hlong)

theorem InBytes.behind (hc : c.InBytes) (enc : List UInt8) : (c.behind enc).InBytes where
  pos_nonneg := Int.add_nonneg hc.pos_nonneg (Int.natCast_nonneg _)
  stop_le := hc.stop_le
  length_lt := hc.length_lt

theorem InBytes.not_lacksByte (hc : c.InBytes) : ¬ c.LacksByte := by
  rintro ⟨hstop, fault, hfault⟩
  obtain ⟨b, hitem⟩ := hc.exists_item hstop
  rw [hitem] at hfault
  cases hfault

theorem itemAt_natCast {α : Type} {items : List α} {place : ℕ} (h : place < items.length)
    (hfits : fitsWord place = true) : itemAt items place = .ok items[place] := by
  have hstart : ¬ (place : ℤ) < 0 := by omega
  have hplace : 0 ≤ (place : ℤ) ∧ (place : ℤ).toNat < items.length := by omega
  rw [itemAt, placeAt]
  simp only [hstart, if_false, hfits, Bool.not_true, Bool.false_eq_true, hplace, and_self, dif_pos]
  rfl

/-- Bytes among others stand where they begin, whatever comes behind them. -/
theorem stands_append {before rest : List UInt8} {stop : ℤ}
    (hlength : before.length + enc.length < 0x8000000000000000)
    (hstop : before.length + enc.length ≤ stop) :
    Stands ⟨before ++ (enc ++ rest), before.length, stop⟩ enc := by
  intro i hi
  have hplace : before.length + i < (before ++ (enc ++ rest)).length := by
    simp only [List.length_append]
    omega
  have hitem : (before ++ (enc ++ rest))[before.length + i] = enc[i] := by
    simp [List.getElem_append_right, List.getElem_append_left hi]
  have hfits : fitsWord ((before.length + i : ℕ) : ℤ) = true := by
    simp only [fitsWord, Bool.and_eq_true, decide_eq_true_eq]
    omega
  refine ⟨by simp only; omega, ?_⟩
  rw [← hitem]
  exact itemAt_natCast hplace hfits

/-! ## Steps -/

theorem byte_of_stands (h : c.Stands [b]) : byte c = .ok b (c.behind [b]) := by
  obtain ⟨hstop, hitem⟩ := stands_singleton.mp h
  have hpeek : peek c = .ok b c := by
    rw [peek, if_neg (by simp [isAtEnd, hstop]), hitem]
  exact bind_of_ok hpeek _

theorem byte_of_lacksByte (h : c.LacksByte) : ∃ fault, byte c = .error (.position fault) c := by
  obtain ⟨hstop, fault, hitem⟩ := h
  have hpeek : peek c = .error (.position fault) c := by
    rw [peek, if_neg (by simp [isAtEnd, hstop]), hitem]
  exact ⟨fault, bind_of_error hpeek _⟩

/-- A cursor is at its end, or the next byte is there, or it lacks the next byte. -/
theorem stands_or_lacksByte (h : ¬ c.isAtEnd = true) : (∃ b, c.Stands [b]) ∨ c.LacksByte := by
  have hstop : c.pos < c.stop := by simpa [isAtEnd] using h
  cases hitem : itemAt c.data c.pos with
  | ok b => exact .inl ⟨b, stands_singleton.mpr ⟨hstop, hitem⟩⟩
  | error fault => exact .inr ⟨hstop, fault, hitem⟩

/-! ## Groups -/

/-- The groups of an integer of at most `most` bytes go on beyond the bytes, but not beyond the
stop. -/
def CutShort (most : ℕ) (c : ByteCursor) : Prop :=
  ∃ more, more.length < most ∧ (∀ b ∈ more, 0x80 ≤ b) ∧ c.Stands more ∧ (c.behind more).LacksByte

theorem InBytes.not_cutShort (hc : c.InBytes) (most : ℕ) : ¬ c.CutShort most := by
  rintro ⟨more, -, -, -, hlacks⟩
  exact (hc.behind more).not_lacksByte hlacks

theorem LacksByte.cutShort (h : c.LacksByte) (most : ℕ) : c.CutShort (most + 1) :=
  ⟨[], Nat.succ_pos most, by simp, stands_nil, by rwa [behind_nil]⟩

theorem CutShort.cons {most : ℕ} (hb : c.Stands [b]) (hmore : 0x80 ≤ b)
    (h : (c.behind [b]).CutShort most) : c.CutShort (most + 1) := by
  obtain ⟨more, hlength, hall, hstands, hlacks⟩ := h
  exact ⟨b :: more, Nat.succ_lt_succ hlength, List.forall_mem_cons.mpr ⟨hmore, hall⟩,
    stands_cons.mpr ⟨hb, hstands⟩, by rwa [behind_cons]⟩

theorem sevenBitGroups_of_last (start : ℤ) (left : ℕ) (hb : c.Stands [b]) (hlast : b < 0x80) :
    sevenBitGroups start (left + 1) c = .ok [b] (c.behind [b]) := by
  refine (bind_of_ok (byte_of_stands hb) _).trans ?_
  rw [if_pos hlast]
  rfl

theorem sevenBitGroups_of_more (start : ℤ) (left : ℕ) (hb : c.Stands [b]) (hmore : 0x80 ≤ b) :
    sevenBitGroups start (left + 1) c =
      (do return b :: (← sevenBitGroups start left) : CursorStep (List UInt8)) (c.behind [b]) := by
  refine (bind_of_ok (byte_of_stands hb) _).trans ?_
  rw [if_neg (UInt8.not_lt.mpr hmore)]

theorem sevenBitGroups_of_stands (start : ℤ) {most : ℕ} (henc : Grammar.leb128 most enc)
    (h : c.Stands enc) : sevenBitGroups start most c = .ok enc (c.behind enc) := by
  induction most generalizing c enc with
  | zero => exact absurd henc (Grammar.not_leb128_zero enc)
  | succ most ih =>
    cases enc with
    | nil => exact absurd henc (Grammar.not_leb128_nil _)
    | cons b enc =>
      obtain ⟨hb, hrest⟩ := stands_cons.mp h
      rcases Grammar.leb128_cons.mp henc with ⟨hlast, rfl⟩ | ⟨hmore, henc⟩
      · exact sevenBitGroups_of_last start most hb hlast
      · rw [sevenBitGroups_of_more start most hb hmore, @behind_cons c b enc]
        exact bind_of_ok (ih henc hrest) _

theorem sevenBitGroups_of_cutShort (start : ℤ) {most : ℕ} (h : c.CutShort most) :
    ∃ fault c', sevenBitGroups start most c = .error (.position fault) c' := by
  induction most generalizing c with
  | zero =>
    obtain ⟨more, hlength, -⟩ := h
    exact absurd hlength (Nat.not_lt_zero _)
  | succ most ih =>
    obtain ⟨more, hlength, hall, hstands, hlacks⟩ := h
    cases more with
    | nil =>
      rw [behind_nil] at hlacks
      obtain ⟨fault, hbyte⟩ := byte_of_lacksByte hlacks
      exact ⟨fault, c, bind_of_error hbyte _⟩
    | cons b more =>
      obtain ⟨hmore, hall⟩ := List.forall_mem_cons.mp hall
      obtain ⟨hb, hrest⟩ := stands_cons.mp hstands
      rw [behind_cons] at hlacks
      obtain ⟨fault, c', herror⟩ := ih ⟨more, Nat.lt_of_succ_lt_succ hlength, hall, hrest, hlacks⟩
      rw [sevenBitGroups_of_more start most hb hmore]
      exact ⟨fault, c', bind_of_error herror _⟩

/-- Either the groups of an integer are there, or they are cut short, or the bytes are malformed. -/
theorem sevenBitGroups_cases (start : ℤ) (most : ℕ) (c : ByteCursor) :
    (∃ enc, Grammar.leb128 most enc ∧ c.Stands enc) ∨ c.CutShort most ∨
      ∃ offset fault c', sevenBitGroups start most c = .error (.malformed offset fault) c' := by
  induction most generalizing c with
  | zero => exact .inr (.inr ⟨_, _, _, rfl⟩)
  | succ most ih =>
    by_cases hend : c.isAtEnd = true
    · exact .inr (.inr ⟨_, _, _, stopsAtEnd_sevenBitGroups start most hend⟩)
    rcases stands_or_lacksByte hend with ⟨b, hb⟩ | hlacks
    · by_cases hlast : b < 0x80
      · exact .inl ⟨[b], Grammar.leb128_cons.mpr (.inl ⟨hlast, rfl⟩), hb⟩
      · have hmore : 0x80 ≤ b := UInt8.not_lt.mp hlast
        rcases ih (c.behind [b]) with ⟨enc, henc, hrest⟩ | hcut | ⟨offset, fault, c', herror⟩
        · exact .inl ⟨b :: enc, Grammar.leb128_cons.mpr (.inr ⟨hmore, henc⟩),
            stands_cons.mpr ⟨hb, hrest⟩⟩
        · exact .inr (.inl (hcut.cons hb hmore))
        · rw [sevenBitGroups_of_more start most hb hmore]
          exact .inr (.inr ⟨offset, fault, c', bind_of_error herror _⟩)
    · exact .inr (.inl (hlacks.cutShort most))

/-! ## Integers -/

section

variable {value : List UInt8 → ℤ} {least most v : ℤ}

theorem integer_of_stands (henc : Grammar.leb128 5 enc) (h : c.Stands enc) :
    integer value least most c =
      if least ≤ value enc ∧ value enc ≤ most then .ok (value enc) (c.behind enc)
      else .error (.malformed c.pos .integerTooLarge) (c.behind enc) := by
  refine (bind_of_ok (sevenBitGroups_of_stands c.pos henc h) _).trans ?_
  split <;> rfl

theorem integer_of_cutShort (value : List UInt8 → ℤ) (least most : ℤ) (h : c.CutShort 5) :
    ∃ fault c', integer value least most c = .error (.position fault) c' := by
  obtain ⟨fault, c', herror⟩ := sevenBitGroups_of_cutShort c.pos h
  exact ⟨fault, c', bind_of_error herror _⟩

theorem integer_cases (value : List UInt8 → ℤ) (least most : ℤ) (c : ByteCursor) :
    (∃ enc, Grammar.leb128 5 enc ∧ c.Stands enc) ∨ c.CutShort 5 ∨
      ∃ offset fault c', integer value least most c = .error (.malformed offset fault) c' := by
  rcases sevenBitGroups_cases c.pos 5 c with henc | hcut | ⟨offset, fault, c', herror⟩
  · exact .inl henc
  · exact .inr (.inl hcut)
  · exact .inr (.inr ⟨offset, fault, c', bind_of_error herror _⟩)

theorem integer_eq_ok :
    integer value least most c = .ok v c' ↔
      ∃ enc, Grammar.leb128 5 enc ∧ c.Stands enc ∧ v = value enc ∧ (least ≤ v ∧ v ≤ most) ∧
        c' = c.behind enc := by
  constructor
  · intro h
    rcases integer_cases value least most c with ⟨enc, henc, hstands⟩ | hcut | ⟨_, _, _, herror⟩
    · rw [integer_of_stands henc hstands] at h
      split at h
      · next hrange =>
        cases h
        exact ⟨enc, henc, hstands, rfl, hrange, rfl⟩
      · cases h
    · obtain ⟨fault, c'', herror⟩ := integer_of_cutShort value least most hcut
      rw [herror] at h
      cases h
    · rw [herror] at h
      cases h
  · rintro ⟨enc, henc, hstands, rfl, hrange, rfl⟩
    rw [integer_of_stands henc hstands, if_pos hrange]

theorem integer_eq_position :
    (∃ fault c', integer value least most c = .error (.position fault) c') ↔ c.CutShort 5 := by
  refine ⟨?_, integer_of_cutShort value least most⟩
  rintro ⟨fault, c', h⟩
  rcases integer_cases value least most c with ⟨enc, henc, hstands⟩ | hcut | ⟨_, _, _, herror⟩
  · rw [integer_of_stands henc hstands] at h
    split at h <;> cases h
  · exact hcut
  · rw [herror] at h
    cases h

/-- What is neither read nor cut short is malformed. -/
theorem integer_eq_malformed :
    (∃ offset fault c', integer value least most c = .error (.malformed offset fault) c') ↔
      (¬ ∃ v c', integer value least most c = .ok v c') ∧ ¬ c.CutShort 5 := by
  have hcut : (∃ fault c', integer value least most c = .error (.position fault) c') ↔
      c.CutShort 5 := integer_eq_position
  rw [← hcut]
  cases integer value least most c with
  | ok v c' => simp
  | error e c' => cases e <;> simp

end

/-- A step reads the integers of a grammar and nothing else: where one of its encodings stands, the
step finds the value and moves behind the encoding, and anywhere else it complains of malformed
bytes, unless they are cut short. -/
structure ReadsExactly (s : CursorStep ℤ) (G : Grammar ℤ) : Prop where
  ok_iff : ∀ c v c', s c = .ok v c' ↔ ∃ enc, G v enc ∧ c.Stands enc ∧ c' = c.behind enc
  malformed_iff : ∀ c, (∃ offset fault c', s c = .error (.malformed offset fault) c') ↔
    (¬ ∃ v enc, G v enc ∧ c.Stands enc) ∧ ¬ c.CutShort 5

theorem readsExactly_integer {value : List UInt8 → ℤ} {least most : ℤ} {G : Grammar ℤ}
    (hG : ∀ v enc, G v enc ↔ Grammar.leb128 5 enc ∧ v = value enc ∧ least ≤ v ∧ v ≤ most) :
    ReadsExactly (integer value least most) G := by
  have hok (c : ByteCursor) (v : ℤ) (c' : ByteCursor) : integer value least most c = .ok v c' ↔
      ∃ enc, G v enc ∧ c.Stands enc ∧ c' = c.behind enc := by
    rw [integer_eq_ok]
    refine exists_congr fun enc ↦ ?_
    rw [hG]
    tauto
  refine ⟨hok, fun c ↦ ?_⟩
  rw [integer_eq_malformed]
  simp only [hok]
  refine and_congr_left fun _ ↦ not_congr ⟨?_, ?_⟩
  · rintro ⟨v, c', enc, henc, hstands, -⟩
    exact ⟨v, enc, henc, hstands⟩
  · rintro ⟨v, enc, henc, hstands⟩
    exact ⟨v, _, enc, henc, hstands, rfl⟩

theorem readsExactly_u32 : ReadsExactly u32 fun v enc ↦ 0 ≤ v ∧ Grammar.u32 v.toNat enc := by
  refine readsExactly_integer fun v enc ↦ ?_
  rw [Grammar.u32, unsigned_eq_sevenBits]
  constructor
  · rintro ⟨hpos, henc, hvalue, hrange⟩
    exact ⟨henc, by omega, hpos, by omega⟩
  · rintro ⟨henc, hvalue, hpos, hrange⟩
    exact ⟨hpos, henc, by omega, by omega⟩

theorem readsExactly_s33 : ReadsExactly s33 Grammar.s33 := by
  refine readsExactly_integer fun v enc ↦ ?_
  rw [Grammar.s33, ← signed_eq]
  refine and_congr_right fun _ ↦ and_congr_right fun _ ↦ and_congr_right fun _ ↦ ?_
  omega

/-- An encoding is read wherever it stands among other bytes. -/
theorem ReadsExactly.of_append {s : CursorStep ℤ} {G : Grammar ℤ} (h : ReadsExactly s G) {v : ℤ}
    (henc : G v enc) {before rest : List UInt8} {stop : ℤ}
    (hlength : before.length + enc.length < 0x8000000000000000)
    (hstop : before.length + enc.length ≤ stop) :
    s ⟨before ++ (enc ++ rest), before.length, stop⟩ =
      .ok v ⟨before ++ (enc ++ rest), before.length + enc.length, stop⟩ :=
  (h.ok_iff _ _ _).mpr ⟨enc, henc, stands_append hlength hstop, rfl⟩

/-! ## Loops -/

/-- Read an unsigned integer: `result` is what the groups before make up, and the next one has its
lowest bit at `shift`. -/
def unsignedLoop (start : ℤ) (result shift : ℕ) : CursorStep ℤ := do
  let b ← byte
  let result := result ||| (b.toNat &&& 0x7F) <<< shift
  if b.toNat &&& 0x80 = 0 then return (result : ℤ)
  else if 35 ≤ shift + 7 then throw (.malformed start .integerTooLong)
  else unsignedLoop start result (shift + 7)
termination_by 35 - shift

/-- Read a signed integer. The last group has been counted when the sign is looked at. -/
def signedLoop (start : ℤ) (result shift : ℕ) : CursorStep ℤ := do
  let b ← byte
  let result := result ||| (b.toNat &&& 0x7F) <<< shift
  let shift := shift + 7
  if b.toNat &&& 0x80 = 0 then
    return if b.toNat &&& 0x40 = 0 then (result : ℤ) else (result : ℤ) - (1 <<< shift : ℕ)
  else if 35 ≤ shift then throw (.malformed start .integerTooLong)
  else signedLoop start result shift
termination_by 35 - shift

/-- Read an integer by a loop that knows where it began, and see if it is between two bounds. -/
def integerByLoop (loop : ℤ → CursorStep ℤ) (least most : ℤ) : CursorStep ℤ := do
  let c ← get
  let v ← loop c.pos
  if least ≤ v ∧ v ≤ most then return v else throw (.malformed c.pos .integerTooLarge)

theorem and_two_pow_eq_zero (n place : ℕ) : n &&& 2 ^ place = 0 ↔ n / 2 ^ place % 2 = 0 := by
  rw [Nat.and_two_pow, Nat.testBit_eq_decide_div_mod_eq]
  simp

theorem isLast_iff (b : UInt8) : b.toNat &&& 0x80 = 0 ↔ b < 0x80 := by
  have hbyte := b.toNat_lt
  have hlast : b.toNat &&& 0x80 = 0 ↔ b.toNat / 128 % 2 = 0 := and_two_pow_eq_zero b.toNat 7
  have hlt : b < 0x80 ↔ b.toNat < 128 := UInt8.lt_iff_toNat_lt
  rw [hlast, hlt]
  omega

theorem isPositive_iff (b : UInt8) : b.toNat &&& 0x40 = 0 ↔ b.toNat % 128 < 64 := by
  have hsign : b.toNat &&& 0x40 = 0 ↔ b.toNat / 64 % 2 = 0 := and_two_pow_eq_zero b.toNat 6
  rw [hsign]
  omega

/-- A group goes on top of those before it. -/
theorem or_group {result place : ℕ} (h : result < 128 ^ place) (b : UInt8) :
    result ||| (b.toNat &&& 0x7F) <<< (7 * place) = result + 128 ^ place * (b.toNat % 128) := by
  have hpow : 128 ^ place = 2 ^ (7 * place) := (pow_mul 2 7 place).symm
  rw [Nat.or_comm, ← Nat.shiftLeft_add_eq_or_of_lt (hpow ▸ h), Nat.shiftLeft_eq, ← hpow,
    Nat.and_two_pow_sub_one_eq_mod _ 7]
  ring

theorem add_group_lt {result place : ℕ} (h : result < 128 ^ place) (b : UInt8) :
    result + 128 ^ place * (b.toNat % 128) < 128 ^ (place + 1) := by
  have hgroup : b.toNat % 128 + 1 ≤ 128 := Nat.mod_lt _ (by decide)
  calc result + 128 ^ place * (b.toNat % 128)
      < 128 ^ place + 128 ^ place * (b.toNat % 128) := Nat.add_lt_add_right h _
    _ = 128 ^ place * (b.toNat % 128 + 1) := by ring
    _ ≤ 128 ^ place * 128 := Nat.mul_le_mul_left _ hgroup

/-- The groups of an integer are never none at all. -/
theorem sevenBitGroups_bind_congr (start : ℤ) (left : ℕ) {f g : List UInt8 → CursorStep ℤ}
    (h : ∀ b groups, f (b :: groups) = g (b :: groups)) :
    sevenBitGroups start (left + 1) >>= f = sevenBitGroups start (left + 1) >>= g := by
  rw [sevenBitGroups, bind_assoc, bind_assoc]
  refine bind_congr fun b ↦ ?_
  split
  · rw [pure_bind, pure_bind, h]
  · rw [bind_assoc, bind_assoc]
    exact bind_congr fun groups ↦ by rw [pure_bind, pure_bind, h]

/-- Behind some places, the loop puts the groups that are still to come on top of them. -/
theorem unsignedLoop_eq (start : ℤ) (left place : ℕ) {result : ℕ} (hplace : place + left = 4)
    (hresult : result < 128 ^ place) :
    unsignedLoop start result (7 * place) =
      (do
        let groups ← sevenBitGroups start (left + 1)
        return ((result + 128 ^ place * Decoder.unsigned groups : ℕ) : ℤ)) := by
  rw [unsignedLoop, sevenBitGroups, bind_assoc]
  refine bind_congr fun b ↦ ?_
  rw [or_group hresult]
  by_cases hlast : b < 0x80
  · rw [if_pos ((isLast_iff b).mpr hlast), if_pos hlast]
    simp [Decoder.unsigned]
  · rw [if_neg (mt (isLast_iff b).mp hlast), if_neg hlast]
    cases left with
    | zero =>
      rw [if_pos (by omega)]
      rfl
    | succ left =>
      have hrest := unsignedLoop_eq start left (place + 1) (by omega) (add_group_lt hresult b)
      rw [Nat.mul_add, Nat.mul_one] at hrest
      rw [if_neg (by omega), hrest, bind_assoc]
      refine bind_congr fun groups ↦ ?_
      rw [pure_bind, Decoder.unsigned]
      congr 2
      ring

theorem signed_singleton (b : UInt8) :
    Decoder.signed [b] = (b.toNat % 128 : ℕ) - if b.toNat % 128 < 64 then 0 else 128 := by
  rw [Decoder.signed]
  simp only [List.getLastD_cons, List.getLastD_nil]
  split
  · simp [Decoder.unsigned]
  · simp [Decoder.unsigned]

theorem signed_cons_cons (b b' : UInt8) (groups : List UInt8) :
    Decoder.signed (b :: b' :: groups) =
      (b.toNat % 128 : ℕ) + 128 * Decoder.signed (b' :: groups) := by
  rw [Decoder.signed, Decoder.signed, List.getLastD_cons, List.getLastD_cons, List.getLastD_cons,
    Decoder.unsigned]
  split
  · push_cast
    ring
  · simp only [List.length_cons, Nat.pow_eq, pow_succ]
    push_cast
    ring

theorem signedLoop_eq (start : ℤ) (left place : ℕ) {result : ℕ} (hplace : place + left = 4)
    (hresult : result < 128 ^ place) :
    signedLoop start result (7 * place) =
      (do
        let groups ← sevenBitGroups start (left + 1)
        return (result : ℤ) + 128 ^ place * Decoder.signed groups) := by
  rw [signedLoop, sevenBitGroups, bind_assoc]
  refine bind_congr fun b ↦ ?_
  rw [or_group hresult]
  by_cases hlast : b < 0x80
  · rw [if_pos ((isLast_iff b).mpr hlast), if_pos hlast, pure_bind, signed_singleton]
    congr 1
    have hpow : 2 ^ (7 * place + 7) = 128 ^ place * 128 := by
      rw [pow_add, pow_mul]
      norm_num
    rw [Nat.one_shiftLeft, hpow]
    simp only [isPositive_iff]
    split
    · push_cast
      ring
    · push_cast
      ring
  · rw [if_neg (mt (isLast_iff b).mp hlast), if_neg hlast]
    cases left with
    | zero =>
      rw [if_pos (by omega)]
      rfl
    | succ left =>
      have hrest := signedLoop_eq start left (place + 1) (by omega) (add_group_lt hresult b)
      rw [Nat.mul_add, Nat.mul_one] at hrest
      rw [if_neg (by omega), hrest, bind_assoc]
      refine sevenBitGroups_bind_congr start left fun b' groups ↦ ?_
      rw [pure_bind, signed_cons_cons]
      congr 1
      push_cast
      ring

/-- A loop that finds a value of the groups is a way to read an integer. -/
theorem integer_eq_byLoop {value : List UInt8 → ℤ} {loop : ℤ → CursorStep ℤ} (least most : ℤ)
    (h : ∀ start, loop start = do return value (← sevenBitGroups start 5)) :
    integer value least most = integerByLoop loop least most := by
  rw [integer, integerByLoop]
  refine bind_congr fun c ↦ ?_
  rw [h, bind_assoc]
  simp only [pure_bind]

theorem u32_eq_byLoop : u32 = integerByLoop (unsignedLoop · 0 0) 0 0xFFFFFFFF :=
  integer_eq_byLoop _ _ fun start ↦ by
    simpa using unsignedLoop_eq start 4 0 rfl Nat.one_pos

theorem s33_eq_byLoop : s33 = integerByLoop (signedLoop · 0 0) (-0x100000000) 0xFFFFFFFF :=
  integer_eq_byLoop _ _ fun start ↦ by
    simpa using signedLoop_eq start 4 0 rfl Nat.one_pos

/-! ## Both kinds together -/

/-- **What integers a cursor reads.** Reading by a loop comes to the same. Wherever the cursor and
its stop are, it finds a value exactly where an encoding of it stands: one to five bytes, all but
the last with the top bit set, whose lower seven bits add up at their weights to the value, from
which a sign takes the weight behind the last of them, and the value in the range of the type.
Anywhere else it complains of malformed bytes, unless they are cut short, and inside its bytes they
never are. So an encoding is read whatever is around it, and each value in the range has one of each
length, up to five bytes, that has place for it. -/
theorem integers_exact :
    (u32 = integerByLoop (unsignedLoop · 0 0) 0 0xFFFFFFFF ∧
      s33 = integerByLoop (signedLoop · 0 0) (-0x100000000) 0xFFFFFFFF) ∧
    (∀ enc : List UInt8,
      Grammar.sevenBits enc = ∑ i : Fin enc.length, (enc.get i).toNat % 128 * 2 ^ (7 * (i : ℕ))) ∧
    (ReadsExactly u32 (fun v enc ↦ 0 ≤ v ∧ Grammar.u32 v.toNat enc) ∧
      ReadsExactly s33 Grammar.s33) ∧
    (∀ c : ByteCursor, c.InBytes → ¬ c.CutShort 5) ∧
    (∀ (enc before rest : List UInt8) (stop : ℤ),
      before.length + enc.length < 0x8000000000000000 → before.length + enc.length ≤ stop →
        let c : ByteCursor := ⟨before ++ (enc ++ rest), before.length, stop⟩
        (∀ n, Grammar.u32 n enc → u32 c = .ok n (c.behind enc)) ∧
          ∀ n, Grammar.s33 n enc → s33 c = .ok n (c.behind enc)) ∧
    ∀ count, 1 ≤ count → count ≤ 5 →
      (∀ n : ℕ, n < 2 ^ 32 → n < 2 ^ (7 * count) → ∃! enc, enc.length = count ∧ Grammar.u32 n enc) ∧
        ∀ n : ℤ, -2 ^ 32 ≤ n ∧ n < 2 ^ 32 → -2 ^ (7 * count - 1) ≤ n ∧ n < 2 ^ (7 * count - 1) →
          ∃! enc, enc.length = count ∧ Grammar.s33 n enc := by
  refine ⟨⟨u32_eq_byLoop, s33_eq_byLoop⟩, Grammar.sevenBits_eq_sum,
    ⟨readsExactly_u32, readsExactly_s33⟩, fun c hc ↦ hc.not_cutShort 5, ?_, ?_⟩
  · intro enc before rest stop hlength hstop c
    refine ⟨fun n henc ↦ ?_, fun n henc ↦ readsExactly_s33.of_append henc hlength hstop⟩
    exact readsExactly_u32.of_append ⟨Int.natCast_nonneg n, henc⟩ hlength hstop
  · intro count hone hmost
    exact ⟨fun n hrange hfits ↦ Grammar.existsUnique_u32 hone hmost hfits hrange,
      fun n hrange hfits ↦ Grammar.existsUnique_s33 hone hmost hfits hrange⟩

/-- The least signed integer among other bytes, where no unsigned one stands, and minus one padded
to three bytes. -/
theorem integers_exact_least :
    let enc : List UInt8 := [0x80, 0x80, 0x80, 0x80, 0x70]
    let c : ByteCursor := ⟨[0xFF] ++ (enc ++ [0x80]), 1, 7⟩
    (c.InBytes ∧ ¬ c.CutShort 5) ∧
      (Grammar.s33 (-2 ^ 32) enc ∧ s33 c = .ok (-2 ^ 32) (c.behind enc)) ∧
      (¬ ∃ (v : ℤ) (enc : List UInt8), (0 ≤ v ∧ Grammar.u32 v.toNat enc) ∧ c.Stands enc) ∧
      ∃! enc, enc.length = 3 ∧ Grammar.s33 (-1) enc := by
  intro enc c
  obtain ⟨-, -, ⟨hu32, -⟩, hinside, haround, hcounts⟩ := integers_exact
  have hc : c.InBytes := ⟨by decide, by decide, by decide⟩
  have henc : Grammar.s33 (-2 ^ 32) enc :=
    Grammar.s33_iff.mpr ⟨by decide, by decide, by decide, by decide, by decide⟩
  have hstands : c.Stands enc := @stands_append enc [0xFF] [0x80] 7 (by decide) (by decide)
  have herror : u32 c = .error (.malformed 1 .integerTooLarge) (c.behind enc) :=
    (integer_of_stands henc.1 hstands).trans (if_neg (by decide))
  refine ⟨⟨hc, hinside c hc⟩, ⟨henc, ?_⟩, ?_, ?_⟩
  · exact (haround enc [0xFF] [0x80] 7 (by decide) (by decide)).2 _ henc
  · exact ((hu32.malformed_iff c).mp ⟨_, _, _, herror⟩).1
  · exact (hcounts 3 (by decide) (by decide)).2 (-1) (by decide) (by decide)

/-- A byte says that another group follows, the stop lets one more byte be read, and there is none.
The cursor neither finds an integer nor complains of malformed bytes. -/
theorem u32_beyond_bytes :
    let c : ByteCursor := ⟨[0x80], 0, 2⟩
    u32 c = .error (.position .outOfRange) ⟨[0x80], 1, 2⟩ ∧
      ¬ ((∃ v c', u32 c = .ok v c') ∨
        ∃ offset fault c', u32 c = .error (.malformed offset fault) c') := by
  intro c
  have herror : u32 c = .error (.position .outOfRange) ⟨[0x80], 1, 2⟩ := by rfl
  refine ⟨herror, ?_⟩
  rw [herror]
  rintro (⟨v, c', h⟩ | ⟨offset, fault, c', h⟩)
  · cases h
  · cases h

end ByteCursor

end CallGate.Wasm
