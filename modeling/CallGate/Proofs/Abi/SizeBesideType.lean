import CallGate.Proofs.Abi.ArgNotation

/-!
# A size beside a type

An argument can be given by its size alone, and have a type declared for it later, beside the size.
What the size means should not change by that. It does not as long as the size is a number, be it an
integer, a truth value or a double: whether it stands alone or beside a type, the same integer is
seen in it. But a size may also be spelled by a text, which is read as a number where it stands
alone and is none where it is compared with the size of a type. `TakesType` says what should hold,
and `takesType_iff` that it fails for just those texts that spell the right size.

Everything here is about the two records of an argument, the one without a type and the one with it.
Which argument each of them is comes from `ofFields_eq_ok`; what they have in common is the size as
it is written.
-/

namespace CallGate.Abi

open CallGate.Data

/-! ## Numbers and texts -/

/-- What spells something is a text, and no number. -/
theorem integer?_of_spells {v : Value} {s : String} (h : v.Spells s) : v.integer? = none := by
  cases h with
  | text => rfl
  | bytes => rfl

/-- A text is read as the integer that it spells. -/
theorem lenientInteger_of_spells {v : Value} {s : String} (h : v.Spells s) :
    lenientInteger v = spelledInteger s := by
  cases h with
  | text => rfl
  | bytes hs => simp only [lenientInteger, hs]

/-- An integer is seen in a number, or spelled by a text. -/
theorem integer?_or_spells_of_lenientInteger {v : Value} {n : ℤ} (h : lenientInteger v = .ok n) :
    v.integer? = some n ∨ ∃ s, v.Spells s := by
  cases v with
  | int k =>
    cases h
    exact .inl rfl
  | bool b =>
    cases h
    exact .inl rfl
  | real x => exact .inl (lenientInteger_real.mp h).1
  | text s => exact .inr ⟨s, .text s⟩
  | bytes content =>
    simp only [lenientInteger] at h
    split at h
    · next s hs => exact .inr ⟨s, .bytes hs⟩
    · cases h
  | _ => cases h

/-- A number is read as the integer that it is, unless it is a double beyond all words. -/
theorem lenientInteger_of_integer? {v : Value} {n : ℤ} (hv : v.integer? = some n)
    (hword : -0x8000000000000000 < n ∧ n < 0x8000000000000000) : lenientInteger v = .ok n := by
  cases v with
  | int k =>
    cases hv
    rfl
  | bool b =>
    cases hv
    rfl
  | real x => exact lenientInteger_real.mpr ⟨hv, hword⟩
  | _ => cases hv

namespace Arg

variable {n : String} {t : ArgType} {size : Value} {fields raw typed : List (Value × Value)}
  {a : Arg}

/-- A number that agrees with a type is a size that is understood without being spelled. -/
theorem integer?_eq_size_iff : size.integer? = some (t.size : ℤ) ↔
    lenientInteger size = .ok (t.size : ℤ) ∧ ∀ s, ¬ size.Spells s := by
  constructor
  · intro h
    refine ⟨lenientInteger_of_integer? h (by cases t <;> decide), fun s hs ↦ ?_⟩
    rw [integer?_of_spells hs] at h
    cases h
  · rintro ⟨hread, hspells⟩
    rcases integer?_or_spells_of_lenientInteger hread with h | ⟨s, hs⟩
    · exact h
    · exact absurd hs (hspells s)

/-! ## The two records -/

/-- The arguments that a record gives, by what is noted in it. -/
theorem Notes.ofValue_eq_ok {type size : Option Value} (h : Notes fields (.text n) type size) :
    ofValue (.map fields) = .ok a ↔ a.name = n ∧ n ≠ "" ∧
      (∃ v, completed fields = .ok (a.type, v) ∧ lenientInteger v = .ok (a.size : ℤ)) ∧
        0 < a.size := by
  simp only [h.ofValue_eq_ofFields, ofFields_eq_ok, completed_eq_ok]
  constructor
  · rintro ⟨⟨v, hfield, hspells⟩, hne, hsize, hpos, -⟩
    rw [h.name_eq, Option.some.injEq] at hfield
    obtain rfl : a.name = n := by
      rw [← hfield] at hspells
      exact hspells.unique (.text n)
    exact ⟨rfl, hne, hsize, hpos⟩
  · rintro ⟨rfl, hne, hsize, hpos⟩
    exact ⟨⟨_, h.name_eq, .text _⟩, hne, hsize, hpos, h.keys⟩

/-- A size alone makes a raw argument, as wide as the size says. -/
theorem Notes.ofValue_sized (h : Notes raw (.text n) none (some size)) (hn : n ≠ "") :
    ofValue (.map raw) = .ok a ↔
      a.name = n ∧ a.type = none ∧ lenientInteger size = .ok (a.size : ℤ) ∧ 0 < a.size := by
  have hcompleted : completed raw = .ok (none, size) :=
    completed_eq_ok.mpr (.size (present?_eq_none (.inl h.type_eq)) h.size_eq)
  simp only [h.ofValue_eq_ok, hcompleted, Except.ok.injEq, Prod.mk.injEq, and_assoc,
    exists_and_left, exists_eq_left', hn, ne_eq, not_false_eq_true, true_and, eq_comm (a := none)]

/-- Beside a type, a size has to be the number of its bytes. Any other one is a fault of the record
as a whole. -/
theorem Notes.ofValue_both (h : Notes typed (.text n) (some (.text t.name)) (some size))
    (hn : n ≠ "") :
    ofValue (.map typed) =
      if size.integer? = some (t.size : ℤ) then .ok ⟨n, t.size, some t⟩
      else .error [⟨[], .rule (ArgFault.sizeMismatch size t).text⟩] := by
  split
  · next hfits =>
    have hread := (integer?_eq_size_iff.mp hfits).1
    exact h.ofValue_eq hn (.both h.type_eq h.size_eq hfits) hread (size_pos t)
  · next hfits =>
    have hpresent : present? "type" typed = some (.text t.name) :=
      (present?_eq_some (by rintro ⟨⟩)).mpr h.type_eq
    have hcompleted : completed typed = .error (.sizeMismatch size t) := by
      rw [completed, hpresent, h.size_eq]
      simp only [ofValue?_eq_some.mpr rfl, mt equal_int.mp hfits, if_false, Bool.false_eq_true]
    rw [h.ofValue_eq_ofFields, ofFields, hcompleted]
    rfl

/-! ## Declaring a type -/

/-- A type can be declared for an argument without a change to how its size is understood: beside
the type, a size that alone is understood is accepted if it is that of the type, and refused if it
is another one. -/
def TakesType (n : String) (size : Value) (t : ArgType) : Prop :=
  ∀ raw typed a, Notes raw (.text n) none (some size) →
    Notes typed (.text n) (some (.text t.name)) (some size) → ofValue (.map raw) = .ok a →
      (a.size = t.size → ofValue (.map typed) = .ok ⟨n, t.size, some t⟩) ∧
      (a.size ≠ t.size → ∃ issues, ofValue (.map typed) = .error issues ∧ issues ≠ [])

theorem notes_sized (n : String) (size : Value) :
    Notes [(.text "name", .text n), (.text "size", size)] (.text n) none (some size) :=
  ⟨rfl, rfl, rfl, by simp [KeysAmong]⟩

theorem notes_both (n : String) (size : Value) (t : ArgType) :
    Notes [(.text "name", .text n), (.text "size", size), (.text "type", .text t.name)] (.text n)
      (some (.text t.name)) (some size) :=
  ⟨rfl, rfl, rfl, by simp [KeysAmong]⟩

/-- The record with a type gives its argument if the one without gives an argument of the same size,
and the size is not spelled. -/
theorem ofValue_both_iff (hn : n ≠ "") (hraw : Notes raw (.text n) none (some size))
    (htyped : Notes typed (.text n) (some (.text t.name)) (some size)) :
    ofValue (.map typed) = .ok a ↔ a = ⟨n, t.size, some t⟩ ∧
      ofValue (.map raw) = .ok ⟨n, t.size, none⟩ ∧ ∀ s, ¬ size.Spells s := by
  have hsized : ofValue (.map raw) = .ok ⟨n, t.size, none⟩ ↔
      lenientInteger size = .ok (t.size : ℤ) := by
    simp only [hraw.ofValue_sized hn, size_pos t, and_true, true_and]
  rw [hsized, ← integer?_eq_size_iff, htyped.ofValue_both hn]
  split
  · next hfits => simp only [hfits, Except.ok.injEq, and_true, eq_comm]
  · next hfits => simp only [hfits, and_false, reduceCtorEq]

theorem ofValue_both_of_ne (hn : n ≠ "") (hraw : Notes raw (.text n) none (some size))
    (htyped : Notes typed (.text n) (some (.text t.name)) (some size))
    (hread : ofValue (.map raw) = .ok a) (hne : a.size ≠ t.size ∨ ∃ s, size.Spells s) :
    ofValue (.map typed) = .error [⟨[], .rule (ArgFault.sizeMismatch size t).text⟩] := by
  obtain ⟨-, -, hsize, -⟩ := (hraw.ofValue_sized hn).mp hread
  rw [htyped.ofValue_both hn, if_neg]
  intro hfits
  rcases hne with hne | ⟨s, hs⟩
  · exact hne (Int.ofNat_inj.mp (eq_of_lenientInteger hfits hsize).symm)
  · exact (integer?_eq_size_iff.mp hfits).2 s hs

/-- **Which sizes a type can be declared for.** A type can be declared for an argument without a
change to how its size is understood, unless a text spells the size of the type. More precisely, the
record with the type gives just the argument of that type, and does so if and only if the record
without it gives an argument of the same size, which is not spelled by a text. Where the record
without the type gives an argument and the other one does not, the fault is that the size does not
match the type. -/
theorem takesType_iff (hn : n ≠ "") :
    (TakesType n size t ↔ ¬ ∃ s, size.Spells s ∧ spelledInteger s = .ok (t.size : ℤ)) ∧
    ∀ raw typed, Notes raw (.text n) none (some size) →
      Notes typed (.text n) (some (.text t.name)) (some size) →
        (∀ a, ofValue (.map typed) = .ok a ↔ a = ⟨n, t.size, some t⟩ ∧
          ofValue (.map raw) = .ok ⟨n, t.size, none⟩ ∧ ∀ s, ¬ size.Spells s) ∧
        ∀ a, ofValue (.map raw) = .ok a → a.size ≠ t.size ∨ (∃ s, size.Spells s) →
          ofValue (.map typed) = .error [⟨[], .rule (ArgFault.sizeMismatch size t).text⟩] := by
  refine ⟨⟨?_, fun hspelled raw typed a hraw htyped hread ↦ ?_⟩, fun raw typed hraw htyped ↦
    ⟨fun a ↦ ofValue_both_iff hn hraw htyped, fun a ↦ ofValue_both_of_ne hn hraw htyped⟩⟩
  · rintro htakes ⟨s, hs, hsize⟩
    have hread : ofValue (.map _) = .ok ⟨n, t.size, none⟩ :=
      ((notes_sized n size).ofValue_sized hn).mpr
        ⟨rfl, rfl, (lenientInteger_of_spells hs).trans hsize, size_pos t⟩
    have htyped := (htakes _ _ _ (notes_sized n size) (notes_both n size t) hread).1 rfl
    exact ((ofValue_both_iff hn (notes_sized n size) (notes_both n size t)).mp htyped).2.2 s hs
  · obtain ⟨-, -, hsize, -⟩ := (hraw.ofValue_sized hn).mp hread
    refine ⟨fun heq ↦ ?_, fun hne ↦ ?_⟩
    · rw [heq] at hsize
      have hnone (s : String) (hs : size.Spells s) : False :=
        hspelled ⟨s, hs, (lenientInteger_of_spells hs).symm.trans hsize⟩
      rw [htyped.ofValue_both hn, if_pos (integer?_eq_size_iff.mpr ⟨hsize, hnone⟩)]
    · exact ⟨_, ofValue_both_of_ne hn hraw htyped hread (.inl hne), List.cons_ne_nil _ _⟩

/-- A truth value is the size of a byte, also beside the type, and a double that of a word of four.
A text of one digit is no size of a byte there. -/
theorem takesType_iff_byte :
    TakesType "flag" (.bool true) .u8 ∧ ¬ TakesType "flag" (.text "1") .u8 ∧
      ofValue (.map [(.text "name", .text "blob"), (.text "size", .real (.finite false 1 2)),
        (.text "type", .text "i32")]) = .ok ⟨"blob", 4, some .i32⟩ := by
  have hflag : "flag" ≠ "" := by decide
  have hblob : "blob" ≠ "" := by decide
  refine ⟨(takesType_iff hflag).1.mpr ?_, fun h ↦ (takesType_iff hflag).1.mp h ?_, ?_⟩
  · rintro ⟨s, ⟨⟩, -⟩
  · exact ⟨"1", .text "1", by decide⟩
  · refine (((takesType_iff hblob).2 _ _ (notes_sized _ _) (notes_both _ _ .i32)).1 _).mpr
      ⟨rfl, rfl, ?_⟩
    rintro s ⟨⟩

/-- Four bytes, spelled by a text, are understood alone, and beside a type of four bytes they are
said to be no four bytes. -/
theorem not_takesType_spelled :
    ofValue (.map [(.text "name", .text "blob"), (.text "size", .text "4")]) =
        .ok ⟨"blob", ArgType.i32.size, none⟩ ∧
      ofValue (.map [(.text "name", .text "blob"), (.text "size", .text "4"),
        (.text "type", .text "i32")]) =
          .error [⟨[], .rule "size 4 does not match type i32 (4 bytes)"⟩] ∧
      ¬ TakesType "blob" (.text "4") .i32 := by
  have hraw : ofValue (.map [(.text "name", .text "blob"), (.text "size", .text "4")]) =
      .ok ⟨"blob", ArgType.i32.size, none⟩ := by decide
  have htyped : ofValue (.map [(.text "name", .text "blob"), (.text "size", .text "4"),
      (.text "type", .text "i32")]) =
        .error [⟨[], .rule "size 4 does not match type i32 (4 bytes)"⟩] := by decide +kernel
  refine ⟨hraw, htyped, fun h ↦ ?_⟩
  have htaken := (h _ _ _ (notes_sized _ _) (notes_both _ _ _) hraw).1 rfl
  cases htyped.symm.trans htaken

end Arg

end CallGate.Abi
