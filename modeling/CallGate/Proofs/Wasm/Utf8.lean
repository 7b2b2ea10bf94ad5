import CallGate.Proofs.Wasm.Counted

/-!
# Text in UTF-8

The content of a name as a grammar of its own. A code point takes one to four bytes: the first one
says how many, and the others carry six bits each. `Grammar.CodePoint` reads the number off the
bytes, and then says which numbers are refused: those that a shorter sequence could have written,
the halves of surrogate pairs, and whatever lies above the last code point. A text is one sequence
for each of its characters (`Grammar.text`), and bytes are UTF-8 if sequences are all there is to
them (`IsUtf8`).

These grammars do not ask an encoder. That a character has one sequence, the one an encoder makes of
it, has to be proved (`codePoint_iff`), and with it that UTF-8 is exactly what texts are written in
(`isUtf8_iff`), each of them in one way (`text_iff`).
-/

namespace CallGate.Wasm

namespace Grammar

/-! ## Sequences -/

/-- A byte behind the first one of a sequence: its top two bits are 1 and 0. -/
def IsTrail (b : UInt8) : Prop := 0x80 ≤ b.toNat ∧ b.toNat < 0xC0

/-- The bytes of one code point. The first byte tells the length by its top bits and has the top
bits of the number below them; each further byte adds six bits. -/
inductive CodePoint : Grammar ℕ
  | one {n : ℕ} {b : UInt8} (hb : b.toNat < 0x80) (hn : n = b.toNat) : CodePoint n [b]
  | two {n : ℕ} {b c : UInt8} (hb : 0xC0 ≤ b.toNat ∧ b.toNat < 0xE0) (hc : IsTrail c)
      (hn : n = b.toNat % 0x20 * 0x40 + c.toNat % 0x40)
      (shortest : 0x80 ≤ n) : CodePoint n [b, c]
  | three {n : ℕ} {b c d : UInt8} (hb : 0xE0 ≤ b.toNat ∧ b.toNat < 0xF0) (hc : IsTrail c)
      (hd : IsTrail d)
      (hn : n = b.toNat % 0x10 * 0x1000 + c.toNat % 0x40 * 0x40 + d.toNat % 0x40)
      (shortest : 0x800 ≤ n) (whole : ¬ (0xD800 ≤ n ∧ n ≤ 0xDFFF)) : CodePoint n [b, c, d]
  | four {n : ℕ} {b c d e : UInt8} (hb : 0xF0 ≤ b.toNat ∧ b.toNat < 0xF8) (hc : IsTrail c)
      (hd : IsTrail d) (he : IsTrail e)
      (hn : n = b.toNat % 0x08 * 0x40000 + c.toNat % 0x40 * 0x1000 + d.toNat % 0x40 * 0x40 +
        e.toNat % 0x40)
      (shortest : 0x10000 ≤ n) (last : n ≤ 0x10FFFF) : CodePoint n [b, c, d, e]

/-- What is written is the number of a character. -/
theorem CodePoint.isValidChar {n : ℕ} {enc : List UInt8} (h : CodePoint n enc) :
    n.isValidChar := by
  change n < 0xD800 ∨ 0xDFFF < n ∧ n < 0x110000
  cases h with
  | one hb hn => omega
  | two hb hc hn shortest => omega
  | three hb hc hd hn shortest whole => omega
  | four hb hc hd he hn shortest last => omega

/-- Seven first bytes are in no sequence: they could only begin one that is too long, or lead beyond
the last code point. -/
theorem CodePoint.first_lt {n : ℕ} {b : UInt8} {enc : List UInt8} (h : CodePoint n (b :: enc)) :
    b.toNat < 0x80 ∨ 0xC2 ≤ b.toNat ∧ b.toNat < 0xF5 := by
  cases h with
  | one hb hn => omega
  | two hb hc hn shortest => omega
  | three hb hc hd hn shortest whole => omega
  | four hb hc hd he hn shortest last => omega

private theorem eq_ofNat {b : UInt8} {n : ℕ} (h : b.toNat = n) : b = .ofNat n := by
  rw [← h, UInt8.ofNat_toNat]

/-- The bounds on the number leave one length to a sequence, and its bytes are then what division
leaves. -/
theorem CodePoint.eq_utf8EncodeChar {c : Char} {enc : List UInt8} (h : CodePoint c.toNat enc) :
    enc = String.utf8EncodeChar c := by
  have hcode : c.val.toNat = c.toNat := rfl
  simp only [String.utf8EncodeChar, hcode]
  generalize c.toNat = n at h
  -- The shortest length that holds a number is the one that the encoder chooses.
  cases h with
  | one hb hn => rw [if_pos (by omega), hn, UInt8.ofNat_toNat]
  | two hb hc hn shortest =>
    obtain ⟨hclow, hchigh⟩ := hc
    rw [if_neg (by omega), if_pos (by omega)]
    simp only [List.cons.injEq, and_true]
    refine ⟨eq_ofNat ?_, eq_ofNat ?_⟩ <;> omega
  | three hb hc hd hn shortest whole =>
    obtain ⟨hclow, hchigh⟩ := hc
    obtain ⟨hdlow, hdhigh⟩ := hd
    rw [if_neg (by omega), if_neg (by omega), if_pos (by omega)]
    simp only [List.cons.injEq, and_true]
    refine ⟨eq_ofNat ?_, eq_ofNat ?_, eq_ofNat ?_⟩ <;> omega
  | four hb hc hd he hn shortest last =>
    obtain ⟨hclow, hchigh⟩ := hc
    obtain ⟨hdlow, hdhigh⟩ := hd
    obtain ⟨helow, hehigh⟩ := he
    rw [if_neg (by omega), if_neg (by omega), if_neg (by omega)]
    simp only [List.cons.injEq, and_true]
    refine ⟨eq_ofNat ?_, eq_ofNat ?_, eq_ofNat ?_, eq_ofNat ?_⟩ <;> omega

theorem isTrail_ofNat (n : ℕ) : IsTrail (.ofNat (n % 0x40 + 0x80)) := by
  simp only [IsTrail, UInt8.toNat_ofNat']
  omega

theorem codePoint_utf8EncodeChar (c : Char) : CodePoint c.toNat (String.utf8EncodeChar c) := by
  have hcode : c.val.toNat = c.toNat := rfl
  have hvalid : c.toNat < 0xD800 ∨ 0xDFFF < c.toNat ∧ c.toNat < 0x110000 := c.valid
  simp only [String.utf8EncodeChar, hcode]
  generalize c.toNat = n at hvalid
  split
  · refine .one ?_ ?_ <;> simp only [UInt8.toNat_ofNat'] <;> omega
  split
  · refine .two ?_ (isTrail_ofNat _) ?_ (by omega) <;>
      simp only [UInt8.toNat_ofNat'] <;> omega
  split
  · refine .three ?_ (isTrail_ofNat _) (isTrail_ofNat _) ?_ (by omega) (by omega) <;>
      simp only [UInt8.toNat_ofNat'] <;> omega
  · refine .four ?_ (isTrail_ofNat _) (isTrail_ofNat _) (isTrail_ofNat _) ?_ (by omega)
      (by omega) <;> simp only [UInt8.toNat_ofNat'] <;> omega

theorem codePoint_iff {c : Char} {enc : List UInt8} :
    CodePoint c.toNat enc ↔ enc = String.utf8EncodeChar c :=
  ⟨CodePoint.eq_utf8EncodeChar, fun h ↦ h ▸ codePoint_utf8EncodeChar c⟩

/-! ## Texts -/

/-- The characters of a text, one sequence for each. -/
def text : Grammar String := fun s enc ↦ CodePoint.items (s.toList.map Char.toNat) enc

theorem items_codePoint_iff {cs : List Char} {enc : List UInt8} :
    CodePoint.items (cs.map Char.toNat) enc ↔ enc = cs.flatMap String.utf8EncodeChar := by
  induction cs generalizing enc with
  | nil => exact items_nil
  | cons c cs ih =>
    simp only [List.map_cons, List.flatMap_cons, items_cons, codePoint_iff, ih]
    constructor
    · rintro ⟨_, _, rfl, rfl, rfl⟩
      rfl
    · rintro rfl
      exact ⟨_, _, rfl, rfl, rfl⟩

theorem utf8_eq_flatMap (s : String) : utf8 s = s.toList.flatMap String.utf8EncodeChar := by
  rw [utf8, String.toUTF8_eq_toByteArray, ← String.utf8Encode_toList, List.utf8Encode,
    List.data_toByteArray]

/-- A text is written in one way, the one that its encoding has. -/
theorem text_iff {s : String} {enc : List UInt8} : text s enc ↔ enc = utf8 s := by
  rw [text, items_codePoint_iff, utf8_eq_flatMap]

/-- No two texts are written alike. -/
theorem utf8_inj {s t : String} : utf8 s = utf8 t ↔ s = t := by
  refine ⟨fun h ↦ ?_, fun h ↦ h ▸ rfl⟩
  have hs := Decoder.fromUTF8?_eq_some.mpr (rfl : utf8 s = utf8 s)
  have ht := Decoder.fromUTF8?_eq_some.mpr h
  exact Option.some.inj (hs.symm.trans ht)

/-- Numbers that can be written are those of some characters. -/
theorem exists_map_toNat_of_items {points : List ℕ} {enc : List UInt8}
    (h : CodePoint.items points enc) : ∃ cs : List Char, points = cs.map Char.toNat := by
  induction points generalizing enc with
  | nil => exact ⟨[], rfl⟩
  | cons n points ih =>
    obtain ⟨e₁, e₂, hn, hpoints, -⟩ := items_cons.mp h
    obtain ⟨cs, rfl⟩ := ih hpoints
    exact ⟨Char.ofNatAux n hn.isValidChar :: cs, rfl⟩

end Grammar

/-- Bytes that consist of whole sequences. -/
def IsUtf8 (content : List UInt8) : Prop := ∃ points, Grammar.CodePoint.items points content

/-- **UTF-8 is what texts are written in.** -/
theorem isUtf8_iff {content : List UInt8} : IsUtf8 content ↔ ∃ s, Grammar.text s content := by
  constructor
  · rintro ⟨points, h⟩
    obtain ⟨cs, rfl⟩ := Grammar.exists_map_toNat_of_items h
    exact ⟨String.ofList cs, by rwa [Grammar.text, String.toList_ofList]⟩
  · rintro ⟨s, h⟩
    exact ⟨_, h⟩

theorem IsUtf8.first_lt {b : UInt8} {rest : List UInt8} (h : IsUtf8 (b :: rest)) :
    b.toNat < 0x80 ∨ 0xC2 ≤ b.toNat ∧ b.toNat < 0xF5 := by
  obtain ⟨points, hpoints⟩ := h
  cases points with
  | nil => exact absurd (Grammar.items_nil.mp hpoints) (List.cons_ne_nil b rest)
  | cons n points =>
    obtain ⟨e₁, e₂, hn, -, heq⟩ := Grammar.items_cons.mp hpoints
    cases e₁ with
    | nil => cases hn
    | cons b' enc =>
      obtain ⟨rfl, -⟩ := List.cons.inj heq
      exact hn.first_lt

end CallGate.Wasm
