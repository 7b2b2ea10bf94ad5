import CallGate.Proofs.Wasm.Integer
import CallGate.Wasm.Module

/-!
# Vectors and names

What begins with its own size: vectors give the number of their items, names the number of their
bytes. A vector reads what its items read, whatever these are (`reads_vector`), so the grammars of
types and imports only have to say what one item looks like.
-/

namespace CallGate.Wasm

open Decoder

variable {α : Type} {G : Grammar α}

/-! ## Items -/

namespace Grammar

theorem items_nil {enc : List UInt8} : G.items [] enc ↔ enc = [] := by
  constructor
  · rintro ⟨parts, h, rfl⟩
    cases h
    rfl
  · rintro rfl
    exact ⟨[], List.Forall₂.nil, rfl⟩

theorem items_cons {a : α} {as : List α} {enc : List UInt8} :
    G.items (a :: as) enc ↔ ∃ e₁ e₂, G a e₁ ∧ G.items as e₂ ∧ enc = e₁ ++ e₂ := by
  constructor
  · rintro ⟨parts, h, rfl⟩
    cases h with
    | cons ha has => exact ⟨_, _, ha, ⟨_, has, rfl⟩, rfl⟩
  · rintro ⟨e₁, e₂, ha, ⟨parts, has, rfl⟩, rfl⟩
    exact ⟨e₁ :: parts, List.Forall₂.cons ha has, rfl⟩

/-- Items one after the other are a list of items and then another list of items. -/
theorem items_append {as bs : List α} {enc : List UInt8} :
    G.items (as ++ bs) enc ↔ ∃ e₁ e₂, G.items as e₁ ∧ G.items bs e₂ ∧ enc = e₁ ++ e₂ := by
  induction as generalizing enc with
  | nil => simp [items_nil]
  | cons a as ih =>
    simp only [List.cons_append, items_cons, ih]
    constructor
    · rintro ⟨e₁, _, ha, ⟨e₂, e₃, has, hbs, rfl⟩, rfl⟩
      exact ⟨e₁ ++ e₂, e₃, ⟨e₁, e₂, ha, has, rfl⟩, hbs, (List.append_assoc ..).symm⟩
    · rintro ⟨_, e₃, ⟨e₁, e₂, ha, has, rfl⟩, hbs, rfl⟩
      exact ⟨e₁, e₂ ++ e₃, ha, ⟨e₂, e₃, has, hbs, rfl⟩, List.append_assoc ..⟩

theorem exists_items_iff {as : List α} :
    (∃ enc, G.items as enc) ↔ ∀ a ∈ as, ∃ enc, G a enc := by
  induction as with
  | nil => simp [items_nil]
  | cons a as ih =>
    rw [List.forall_mem_cons, ← ih]
    constructor
    · rintro ⟨enc, h⟩
      obtain ⟨e₁, e₂, h₁, h₂, -⟩ := items_cons.mp h
      exact ⟨⟨e₁, h₁⟩, e₂, h₂⟩
    · rintro ⟨⟨e₁, h₁⟩, e₂, h₂⟩
      exact ⟨e₁ ++ e₂, items_cons.mpr ⟨e₁, e₂, h₁, h₂, rfl⟩⟩

/-! ## Vectors and names as grammars -/

/-- A count, and as many items. -/
def vector (G : Grammar α) : Grammar (List α) := fun as enc ↦
  ∃ count body, u32 as.length count ∧ G.items as body ∧ enc = count ++ body

/-- The bytes of a name. -/
def utf8 (s : String) : List UInt8 := s.toUTF8.data.toList

/-- The number of bytes, and then the name in UTF-8. -/
def name : Grammar String := fun s enc ↦
  ∃ count, u32 (utf8 s).length count ∧ enc = count ++ utf8 s

/-- A list can be written as a vector if each item can be written and there are not too many. -/
theorem exists_vector_iff {as : List α} :
    (∃ enc, G.vector as enc) ↔ as.length < 2 ^ 32 ∧ ∀ a ∈ as, ∃ enc, G a enc := by
  constructor
  · rintro ⟨enc, count, body, hcount, hbody, -⟩
    exact ⟨hcount.2.2, exists_items_iff.mp ⟨body, hbody⟩⟩
  · rintro ⟨hlen, h⟩
    obtain ⟨body, hbody⟩ := exists_items_iff.mpr h
    exact ⟨_, padded as.length, body, u32_padded hlen, hbody, rfl⟩

theorem exists_u32_iff {n : ℕ} : (∃ enc, u32 n enc) ↔ n < 2 ^ 32 :=
  ⟨fun ⟨_, h⟩ ↦ h.2.2, fun h ↦ ⟨padded n, u32_padded h⟩⟩

end Grammar

/-! ## Reading -/

namespace Decoder

variable {item : Decoder α}

theorem reads_repeated (h : Reads item G) (count : ℕ) :
    Reads (repeated item count) fun as enc ↦ as.length = count ∧ G.items as enc := by
  induction count with
  | zero =>
    refine (reads_pure []).congr fun as enc ↦ ?_
    rw [List.length_eq_zero_iff]
    constructor
    · rintro ⟨rfl, rfl⟩
      exact ⟨rfl, Grammar.items_nil.mpr rfl⟩
    · rintro ⟨rfl, henc⟩
      exact ⟨rfl, Grammar.items_nil.mp henc⟩
  | succ count ih =>
    refine (h.bind fun first ↦ ih.bind fun others ↦ reads_pure (first :: others)).congr
      fun as enc ↦ ?_
    constructor
    · rintro ⟨first, e₁, _, hfirst, ⟨others, e₂, e₃, ⟨rfl, hothers⟩, ⟨rfl, rfl⟩, rfl⟩, rfl⟩
      exact ⟨rfl, Grammar.items_cons.mpr ⟨e₁, e₂, hfirst, hothers, by simp⟩⟩
    · rintro ⟨hlen, has⟩
      cases as with
      | nil => simp at hlen
      | cons first others =>
        obtain ⟨e₁, e₂, hfirst, hothers, rfl⟩ := Grammar.items_cons.mp has
        exact ⟨first, e₁, e₂, hfirst,
          ⟨others, e₂, [], ⟨Nat.succ.inj hlen, hothers⟩, ⟨rfl, rfl⟩, by simp⟩, rfl⟩

theorem reads_vector (h : Reads item G) : Reads (vector item) G.vector := by
  refine (reads_u32.bind fun count ↦ reads_repeated h count).congr fun as enc ↦ ?_
  constructor
  · rintro ⟨_, e₁, e₂, hcount, ⟨rfl, has⟩, rfl⟩
    exact ⟨e₁, e₂, hcount, has, rfl⟩
  · rintro ⟨count, body, hcount, has, rfl⟩
    exact ⟨as.length, count, body, hcount, ⟨rfl, has⟩, rfl⟩

/-- **Items are found in order.** Where a list of items is written and its bytes begin with some
items, the list begins with these items, and the rest of the bytes are the rest of the list. -/
theorem Reads.items_of_begins (h : Reads item G) (hG : G.Visible) {as bs : List α}
    {e₁ e₂ : List UInt8} (hbs : G.items bs e₁) (has : G.items as (e₁ ++ e₂)) :
    ∃ cs, as = bs ++ cs ∧ G.items cs e₂ := by
  induction bs generalizing as e₁ with
  | nil =>
    obtain rfl := Grammar.items_nil.mp hbs
    exact ⟨as, rfl, has⟩
  | cons b bs ih =>
    obtain ⟨eb, ebs, hb, hbs', rfl⟩ := Grammar.items_cons.mp hbs
    cases as with
    | nil =>
      have hnil : eb ++ ebs ++ e₂ = [] := Grammar.items_nil.mp has
      have heb : eb = [] := (List.append_eq_nil_iff.mp (List.append_eq_nil_iff.mp hnil).1).1
      exact absurd (heb ▸ hb) (hG b)
    | cons a as =>
      obtain ⟨ea, eas, ha, has, heq⟩ := Grammar.items_cons.mp has
      rw [List.append_assoc] at heq
      -- Both start with one item, and no encoding is the beginning of another.
      obtain ⟨rfl, rfl, rfl⟩ := h.unique hb ha heq
      obtain ⟨cs, rfl, hcs⟩ := ih hbs' has
      exact ⟨cs, rfl, hcs⟩

theorem Reads.items_unique (h : Reads item G) (hG : G.Visible) {as bs : List α}
    {enc : List UInt8} (has : G.items as enc) (hbs : G.items bs enc) : as = bs := by
  have has' : G.items as (enc ++ []) := by rwa [List.append_nil]
  obtain ⟨cs, rfl, hcs⟩ := h.items_of_begins hG hbs has'
  cases cs with
  | nil => exact List.append_nil bs
  | cons c cs =>
    obtain ⟨e₁, e₂, hc, -, hnil⟩ := Grammar.items_cons.mp hcs
    obtain ⟨rfl, -⟩ := List.append_eq_nil_iff.mp hnil.symm
    exact absurd hc (hG c)

theorem reads_bytes (count : ℕ) :
    Reads (bytes count) fun content enc ↦ content = enc ∧ enc.length = count := by
  rintro ⟨offset, bs⟩ w' content
  simp only [EStateM.run, bytes, failHere]
  split
  · next hlt =>
    simp only [reduceCtorEq, false_iff, not_exists, not_and]
    rintro enc ⟨rfl, rfl⟩ hs
    have hbs : bs = content ++ w'.bytes := hs.1
    rw [hbs, List.length_append] at hlt
    omega
  · next hle =>
    simp only [EStateM.Result.ok.injEq]
    constructor
    · rintro ⟨rfl, rfl⟩
      have hlen : (bs.take count).length = count := List.length_take_of_le (Nat.le_of_not_lt hle)
      exact ⟨bs.take count, ⟨rfl, hlen⟩, (List.take_append_drop count bs).symm, by rw [hlen]⟩
    · rintro ⟨enc, ⟨rfl, rfl⟩, hs⟩
      obtain ⟨offset', bs'⟩ := w'
      obtain ⟨rfl, rfl⟩ : bs = content ++ bs' ∧ offset' = offset + content.length := hs
      simp

theorem fromUTF8?_eq_some {content : List UInt8} {s : String} :
    String.fromUTF8? content.toByteArray = some s ↔ content = Grammar.utf8 s := by
  simp only [String.fromUTF8?, Grammar.utf8, String.toUTF8_eq_toByteArray]
  constructor
  · intro h
    split at h
    · cases h
      simp [String.fromUTF8]
    · cases h
  · intro h
    have hs : content.toByteArray = s.toByteArray := by
      apply ByteArray.ext
      simp [h]
    rw [dif_pos (hs ▸ s.isValidUTF8)]
    exact congrArg some (String.toByteArray_inj.mp hs)

theorem reads_name : Reads name Grammar.name := by
  refine (reads_u32.bind fun count ↦ reads_position_bind fun start ↦ (reads_bytes count).bind
    (H := fun content s enc ↦ content = Grammar.utf8 s ∧ enc = []) fun content ↦ ?_).congr
    fun s enc ↦ ?_
  · cases hs : String.fromUTF8? content.toByteArray with
    | none =>
      refine (reads_failAt start _).congr fun s enc ↦ ?_
      rw [← fromUTF8?_eq_some, hs]
      simp
    | some text =>
      refine (reads_pure text).congr fun s enc ↦ ?_
      rw [← fromUTF8?_eq_some, hs, Option.some.injEq, eq_comm]
  · constructor
    · rintro ⟨_, e₁, _, hcount, ⟨_, e₂, e₃, ⟨rfl, rfl⟩, ⟨rfl, rfl⟩, rfl⟩, rfl⟩
      exact ⟨e₁, hcount, by simp⟩
    · rintro ⟨count, hcount, rfl⟩
      exact ⟨_, count, Grammar.utf8 s, hcount,
        ⟨_, Grammar.utf8 s, [], ⟨rfl, rfl⟩, ⟨rfl, rfl⟩, by simp⟩, rfl⟩

/-! ## Whole windows

A section is read to its end, and a decoder that does not get there has failed. -/

theorem value_eq_ok {d : Decoder α} {w : Window} {a : α} :
    d.value w = .ok a ↔ ∃ w', d.run w = .ok a w' := by
  rw [value, EStateM.run]
  cases d w <;> simp

/-- A vector fills its section exactly if the section is one encoding of it. -/
theorem value_wholeVector (h : Reads item G) (place : String) {w : Window} {as : List α} :
    (wholeVector item place).value w = .ok as ↔ G.vector as w.bytes := by
  have hend (w₁ w₂ : Window) :
      (expectEnd place).run w₁ = .ok () w₂ ↔ w₁.bytes = [] ∧ w₁ = w₂ := by
    simp only [EStateM.run, expectEnd, failHere]
    cases hb : w₁.bytes <;> simp
  simp only [value_eq_ok, wholeVector, run_bind_eq_ok, run_pure_eq_ok,
    (reads_vector h).run_eq_ok, hend]
  constructor
  · rintro ⟨_, _, w₁, ⟨enc, henc, hs⟩, _, _, ⟨hnil, rfl⟩, rfl, rfl⟩
    rw [hs.1, hnil, List.append_nil]
    exact henc
  · intro henc
    have hs : w.Skips w.bytes ⟨w.stop, []⟩ := ⟨(List.append_nil _).symm, rfl⟩
    exact ⟨_, as, _, ⟨w.bytes, henc, hs⟩, (), _, ⟨rfl, rfl⟩, rfl, rfl⟩

end Decoder

end CallGate.Wasm
