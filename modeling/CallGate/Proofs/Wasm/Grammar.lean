import CallGate.Wasm.Decoder
import Mathlib.Data.List.Forall2

/-!
# Grammars and the decoders that read them

A grammar says which bytes may stand for which value. It is a relation and not a function: an
integer can be padded, a reference has a short and a long form, and some values cannot be written
at all.

`Reads d G` is what a decoder owes to a grammar, both ways at once: it succeeds with a value exactly
where the window begins with an encoding of that value, and it stops right behind the encoding. Only
the two directions together can be put in sequence, and together they say more than either: no
encoding is the beginning of another one, and none stands for two values (`Reads.unique`).

## First bytes

The alternatives of the format differ in their first byte, which a decoder either takes or looks at.
`G.after b` is what remains of a grammar behind a byte `b`. A decoder that takes a byte reads `G` if
what it does next reads `G.after b`, and this splits a proof along the alternatives
(`reads_byte_bind`, `reads_peek_bind`). It takes a grammar that writes nothing as no bytes, which is
what `Visible` says.
-/

namespace CallGate.Wasm

open Decoder

/-- Which bytes may stand for which value. -/
abbrev Grammar (α : Type) := α → List UInt8 → Prop

variable {α β : Type}

/-! ## Moving over bytes -/

/-- `w'` is what is left of `w` behind some bytes. -/
def Window.Skips (w : Window) (enc : List UInt8) (w' : Window) : Prop :=
  w.bytes = enc ++ w'.bytes ∧ w'.offset = w.offset + enc.length

namespace Window

@[simp] theorem skips_nil {w w' : Window} : w.Skips [] w' ↔ w = w' := by
  obtain ⟨offset, bytes⟩ := w
  obtain ⟨offset', bytes'⟩ := w'
  simp [Skips, and_comm, eq_comm]

theorem skips_cons {w w' : Window} {b : UInt8} {enc : List UInt8} :
    w.Skips (b :: enc) w' ↔
      ∃ rest, w.bytes = b :: rest ∧ (⟨w.offset + 1, rest⟩ : Window).Skips enc w' := by
  simp only [Skips, List.cons_append, List.length_cons]
  constructor
  · rintro ⟨h, ho⟩
    exact ⟨_, h, rfl, by omega⟩
  · rintro ⟨rest, h, rfl, ho⟩
    exact ⟨h, by omega⟩

theorem skips_append {w w'' : Window} {e₁ e₂ : List UInt8} :
    w.Skips (e₁ ++ e₂) w'' ↔ ∃ w', w.Skips e₁ w' ∧ w'.Skips e₂ w'' := by
  simp only [Skips, List.append_assoc, List.length_append]
  constructor
  · rintro ⟨h, ho⟩
    exact ⟨⟨w.offset + e₁.length, e₂ ++ w''.bytes⟩, ⟨h, rfl⟩, rfl, ho.trans (Nat.add_assoc ..).symm⟩
  · rintro ⟨w', ⟨h, ho⟩, h', ho'⟩
    exact ⟨h.trans (by rw [h']), by omega⟩

theorem skips_append_bytes (offset : ℕ) (enc rest : List UInt8) :
    (⟨offset, enc ++ rest⟩ : Window).Skips enc ⟨offset + enc.length, rest⟩ := ⟨rfl, rfl⟩

end Window

/-! ## Grammars -/

namespace Grammar

/-- What may follow a byte. -/
def after (G : Grammar α) (b : UInt8) : Grammar α := fun a enc ↦ G a (b :: enc)

/-- No value is written as no bytes. -/
def Visible (G : Grammar α) : Prop := ∀ a, ¬ G a []

/-- An encoding of `F`, and then one of the grammar that its value selects. -/
def seq (F : Grammar α) (H : α → Grammar β) : Grammar β := fun b enc ↦
  ∃ a e₁ e₂, F a e₁ ∧ H a b e₂ ∧ enc = e₁ ++ e₂

/-- Encodings of the items of a list, one after the other. -/
def items (G : Grammar α) : Grammar (List α) := fun as enc ↦
  ∃ parts, List.Forall₂ G as parts ∧ enc = parts.flatten

end Grammar

/-! ## Reading -/

namespace Decoder

/-- `d` succeeds with a value exactly where the window begins with an encoding of it, and leaves
what is behind the encoding. -/
def Reads (d : Decoder α) (G : Grammar α) : Prop :=
  ∀ ⦃w w' : Window⦄ ⦃a : α⦄, d.run w = .ok a w' ↔ ∃ enc, G a enc ∧ w.Skips enc w'

variable {d : Decoder α} {F G : Grammar α}

theorem Reads.run_eq_ok (h : Reads d G) {w w' : Window} {a : α} :
    d.run w = .ok a w' ↔ ∃ enc, G a enc ∧ w.Skips enc w' := @h w w' a

theorem Reads.congr (h : Reads d F) (hFG : ∀ a enc, F a enc ↔ G a enc) : Reads d G := by
  intro w w' a
  simp only [h.run_eq_ok, hFG]

/-- A decoder that reads a grammar accepts each encoding, whatever comes behind. -/
theorem Reads.run (h : Reads d G) {a : α} {enc : List UInt8} (ha : G a enc) (offset : ℕ)
    (rest : List UInt8) : d.run ⟨offset, enc ++ rest⟩ = .ok a ⟨offset + enc.length, rest⟩ :=
  h.mpr ⟨enc, ha, Window.skips_append_bytes offset enc rest⟩

/-- **No encoding is the beginning of another one.** The value at the start of some bytes and the
end of its encoding are determined by the bytes. -/
theorem Reads.unique (h : Reads d G) {a₁ a₂ : α} {e₁ e₂ r₁ r₂ : List UInt8} (h₁ : G a₁ e₁)
    (h₂ : G a₂ e₂) (he : e₁ ++ r₁ = e₂ ++ r₂) : a₁ = a₂ ∧ e₁ = e₂ ∧ r₁ = r₂ := by
  have hrun := h.run h₁ 0 r₁
  rw [he, h.run h₂ 0 r₂] at hrun
  simp only [EStateM.Result.ok.injEq, Window.mk.injEq] at hrun
  obtain ⟨rfl, -, rfl⟩ := hrun
  exact ⟨rfl, List.append_cancel_right he, rfl⟩

/-- A run of two decoders is a run of the first one and then a run of the second. -/
theorem run_bind_eq_ok {d : Decoder α} {f : α → Decoder β} {w w'' : Window} {b : β} :
    (d >>= f).run w = .ok b w'' ↔ ∃ a w', d.run w = .ok a w' ∧ (f a).run w' = .ok b w'' := by
  simp only [EStateM.run_bind]
  cases d.run w with
  | ok a w' => simp
  | error e w' => simp

theorem run_pure_eq_ok {a b : α} {w w' : Window} :
    (pure a : Decoder α).run w = .ok b w' ↔ a = b ∧ w = w' := by
  simp [EStateM.run_pure]

theorem reads_pure (a : α) : Reads (pure a) fun b enc ↦ b = a ∧ enc = [] := by
  intro w w' b
  rw [run_pure_eq_ok]
  simp [and_assoc, eq_comm]

theorem reads_throw (e : ScanError) : Reads (throw e : Decoder α) fun _ _ ↦ False := by
  intro w w' a
  simp only [false_and, exists_false, iff_false]
  nofun

theorem reads_failAt (offset : ℕ) (fault : Fault) :
    Reads (failAt offset fault : Decoder α) fun _ _ ↦ False := reads_throw _

theorem Reads.bind {f : α → Decoder β} {H : α → Grammar β} (hd : Reads d F)
    (hf : ∀ a, Reads (f a) (H a)) : Reads (d >>= f) (F.seq H) := by
  intro w w'' b
  simp only [run_bind_eq_ok, hd.run_eq_ok, (hf _).run_eq_ok, Grammar.seq]
  constructor
  · rintro ⟨a, w', ⟨e₁, h₁, hs₁⟩, e₂, h₂, hs₂⟩
    exact ⟨e₁ ++ e₂, ⟨a, e₁, e₂, h₁, h₂, rfl⟩, Window.skips_append.mpr ⟨w', hs₁, hs₂⟩⟩
  · rintro ⟨_, ⟨a, e₁, e₂, h₁, h₂, rfl⟩, hs⟩
    obtain ⟨w', hs₁, hs₂⟩ := Window.skips_append.mp hs
    exact ⟨a, w', ⟨e₁, h₁, hs₁⟩, e₂, h₂, hs₂⟩

/-- What is done with a value after it has been read does not concern the bytes. -/
theorem Reads.bind_pure (hd : Reads d F) (f : α → β) :
    Reads (d >>= fun a ↦ pure (f a)) fun b enc ↦ ∃ a, b = f a ∧ F a enc := by
  refine (hd.bind fun a ↦ reads_pure (f a)).congr fun b enc ↦ ?_
  constructor
  · rintro ⟨a, e₁, e₂, ha, ⟨rfl, rfl⟩, rfl⟩
    exact ⟨a, rfl, by rwa [List.append_nil]⟩
  · rintro ⟨a, rfl, ha⟩
    exact ⟨a, enc, [], ha, ⟨rfl, rfl⟩, (List.append_nil enc).symm⟩

/-- The position is for errors alone, so it does not matter to what is read. -/
theorem reads_position_bind {f : ℕ → Decoder α} (h : ∀ offset, Reads (f offset) G) :
    Reads (position >>= f) G := by
  intro w w' a
  rw [run_bind_eq_ok]
  constructor
  · rintro ⟨offset, w₁, hp, hf⟩
    cases hp
    exact (h _).mp hf
  · intro hs
    exact ⟨w.offset, w, rfl, (h _).mpr hs⟩

/-! ### The first byte -/

/-- `d` reads `G` where the window begins with `b`. -/
def ReadsAt (b : UInt8) (d : Decoder α) (G : Grammar α) : Prop :=
  ∀ ⦃offset : ℕ⦄ ⦃rest : List UInt8⦄ ⦃w' : Window⦄ ⦃a : α⦄, d.run ⟨offset, b :: rest⟩ = .ok a w' ↔
    ∃ enc, G a (b :: enc) ∧ (⟨offset + 1, rest⟩ : Window).Skips enc w'

theorem Reads.readsAt (h : Reads d F) (hF : F.Visible) {b : UInt8}
    (hFG : ∀ a enc, F.after b a enc ↔ G.after b a enc) : ReadsAt b d G := by
  intro offset rest w' a
  rw [h.run_eq_ok]
  constructor
  · rintro ⟨enc, ha, hs⟩
    cases enc with
    | nil => exact absurd ha (hF a)
    | cons c enc =>
      obtain ⟨rest', hb, hs'⟩ := Window.skips_cons.mp hs
      cases hb
      exact ⟨enc, (hFG a enc).mp ha, hs'⟩
  · rintro ⟨enc, ha, hs⟩
    exact ⟨b :: enc, (hFG a enc).mpr ha, Window.skips_cons.mpr ⟨rest, rfl, hs⟩⟩

theorem byte_eq_ok {b : UInt8} {w w' : Window} :
    byte.run w = .ok b w' ↔ ∃ rest, w.bytes = b :: rest ∧ w' = ⟨w.offset + 1, rest⟩ := by
  obtain ⟨offset, bytes⟩ := w
  cases bytes with
  | nil => simp [EStateM.run, byte, failHere]
  | cons c rest => simp [EStateM.run, byte, eq_comm]

theorem readsAt_byte_bind {f : UInt8 → Decoder α} {b : UInt8} (h : Reads (f b) (G.after b)) :
    ReadsAt b (byte >>= f) G := by
  intro offset rest w' a
  simp only [run_bind_eq_ok, byte_eq_ok]
  constructor
  · rintro ⟨c, w₁, ⟨rest', hb, rfl⟩, hf⟩
    cases hb
    exact h.mp hf
  · intro hs
    exact ⟨b, _, ⟨rest, rfl, rfl⟩, h.mpr hs⟩

/-- A decoder that fails without a first byte reads a grammar if it does so at every first byte. -/
theorem reads_of_readsAt (hG : G.Visible) (hd : ∀ offset a w', d.run ⟨offset, []⟩ ≠ .ok a w')
    (h : ∀ b, ReadsAt b d G) : Reads d G := by
  rintro ⟨offset, bytes⟩ w' a
  cases bytes with
  | nil =>
    constructor
    · intro hok
      exact absurd hok (hd offset a w')
    · rintro ⟨enc, ha, hs⟩
      have hnil : enc = [] := (List.append_eq_nil_iff.mp hs.1.symm).1
      exact absurd (hnil ▸ ha) (hG a)
  | cons b rest =>
    rw [h b]
    constructor
    · rintro ⟨enc, ha, hs⟩
      exact ⟨b :: enc, ha, Window.skips_cons.mpr ⟨rest, rfl, hs⟩⟩
    · rintro ⟨enc, ha, hs⟩
      cases enc with
      | nil => exact absurd ha (hG a)
      | cons c enc =>
        obtain ⟨rest', hb, hs'⟩ := Window.skips_cons.mp hs
        cases hb
        exact ⟨enc, ha, hs'⟩

theorem reads_byte_bind {f : UInt8 → Decoder α} (hG : G.Visible)
    (h : ∀ b, Reads (f b) (G.after b)) : Reads (byte >>= f) G := by
  refine reads_of_readsAt hG ?_ fun b ↦ readsAt_byte_bind (h b)
  intro offset a w' hok
  obtain ⟨b, w₁, hb, -⟩ := run_bind_eq_ok.mp hok
  simp [byte_eq_ok] at hb

theorem reads_peek_bind {f : UInt8 → Decoder α} (hG : G.Visible)
    (h : ∀ b, ReadsAt b (f b) G) : Reads (peek >>= f) G := by
  refine reads_of_readsAt hG ?_ fun b ↦ ?_
  · intro offset a w' hok
    obtain ⟨b, w₁, hb, -⟩ := run_bind_eq_ok.mp hok
    simp [EStateM.run, peek, failHere] at hb
  · intro offset rest w' a
    rw [← h b, run_bind_eq_ok]
    constructor
    · rintro ⟨c, w₁, hp, hf⟩
      cases hp
      exact hf
    · intro hf
      exact ⟨b, _, rfl, hf⟩

end Decoder

end CallGate.Wasm
