import CallGate.Proofs.Wasm.CursorAgreement
import CallGate.Proofs.Wasm.Grammar

/-!
# What a cursor reads

A grammar says what a decoder reads from a window (`Decoder.Reads`), and on a cursor that shows the
window a step does what the decoder does (`Mirrors`). Here the two come together: inside its bytes,
a cursor reads an encoding that stands at its position and ends before its stop, moves behind it,
and complains of malformed bytes if there is none (`InBytes.reads`, `InBytes.ok_or_malformed`).

A cursor beyond its stop shows no window. What begins with a byte stops there at once
(`StopsAtEnd`), as there is no encoding either.
-/

namespace CallGate.Wasm

open CursorScan

variable {α β : Type}

namespace ByteCursor

/-- A cursor whose numbers mean what they are for: the position is an offset from the first byte, and
the stop has no bytes before it that are not there. A word can count the bytes, as it can on any
machine. The position may also be beyond the stop. -/
structure InBytes (c : ByteCursor) : Prop where
  pos_nonneg : 0 ≤ c.pos
  stop_le : c.stop ≤ c.data.length
  length_lt : c.data.length < 0x8000000000000000

/-- Some bytes stand at the position of a cursor, and end before its stop. -/
structure Begins (c : ByteCursor) (enc : List UInt8) : Prop where
  isPrefix : enc <+: c.data.drop c.pos.toNat
  le_stop : c.pos + enc.length ≤ c.stop

/-- The cursor moved on by some bytes. -/
def behind (c : ByteCursor) (enc : List UInt8) : ByteCursor := { c with pos := c.pos + enc.length }

/-- What a cursor shows if it stands in front of its stop. -/
def window (c : ByteCursor) : Window :=
  ⟨c.pos.toNat, (c.data.drop c.pos.toNat).take (c.stop - c.pos).toNat⟩

variable {c c' : ByteCursor} {enc : List UInt8}

theorem InBytes.shows_window (hc : c.InBytes) (hle : c.pos ≤ c.stop) : Shows c.data c c.window := by
  obtain ⟨hpos, hstop, -⟩ := hc
  refine ⟨rfl, (Int.toNat_of_nonneg hpos).symm, ?_, c.data.take c.pos.toNat,
    (c.data.drop c.pos.toNat).drop (c.stop - c.pos).toNat, ?_, ?_⟩
  · simp only [Window.stop, window, List.length_take, List.length_drop]
    omega
  · simp only [window, List.length_take]
    omega
  · rw [window, List.take_append_drop, List.take_append_drop]

/-- What begins a window is what stands at the position and ends before the stop. -/
theorem begins_iff (hle : c.pos ≤ c.stop) : c.Begins enc ↔ ∃ w', c.window.Skips enc w' := by
  constructor
  · rintro ⟨⟨rest, hrest⟩, hstop⟩
    refine ⟨⟨_, rest.take ((c.stop - c.pos).toNat - enc.length)⟩, ?_, rfl⟩
    rw [window, ← hrest, List.take_append, List.take_of_length_le (by omega)]
  · rintro ⟨w', hbytes, -⟩
    have hlength : enc.length ≤ (c.stop - c.pos).toNat := by
      have h := congrArg List.length hbytes
      rw [window, List.length_take, List.length_append] at h
      omega
    have hprefix : c.window.bytes <+: c.data.drop c.pos.toNat := List.take_prefix _ _
    rw [hbytes] at hprefix
    exact ⟨(List.prefix_append _ _).trans hprefix, by omega⟩

end ByteCursor

theorem Shows.eq_behind {data enc : List UInt8} {c c' : ByteCursor} {w w' : Window}
    (h : Shows data c w) (h' : Shows data c' w') (hskips : w.Skips enc w') : c' = c.behind enc := by
  obtain ⟨hdata, hpos, hstop, -⟩ := h
  obtain ⟨hdata', hpos', hstop', -⟩ := h'
  obtain ⟨hbytes, hoffset⟩ := hskips
  obtain ⟨_, _, _⟩ := c
  obtain ⟨_, _, _⟩ := c'
  subst hdata hdata' hpos hpos' hstop hstop'
  simp only [ByteCursor.behind, Window.stop, ByteCursor.mk.injEq, hbytes, hoffset,
    List.length_append, true_and]
  omega

namespace CursorScan

theorem ofCursor_eq_ok {s : CursorStep α} {c c' : ByteCursor} {a : α} :
    ofCursor s c = .ok a c' ↔ s c = .ok a c' := by
  rw [ofCursor]
  cases s c <;> simp

/-- Only malformed bytes make a step of a cursor complain as a decoder does. -/
theorem malformed_of_ofCursor_eq_error {s : CursorStep α} {c c' : ByteCursor} {e : ScanError}
    (h : ofCursor s c = .error (.ofScanError e) c') :
    ∃ offset fault, s c = .error (.malformed offset fault) c' := by
  rw [ofCursor] at h
  cases hs : s c with
  | ok a c₁ => simp [hs] at h
  | error e' c₁ =>
    cases e' with
    | malformed offset fault =>
      simp only [hs, EStateM.Result.error.injEq] at h
      exact ⟨offset, fault, by rw [h.2]⟩
    | position fault => cases e <;> simp [hs, Stop.ofCursorError, Stop.ofScanError] at h

end CursorScan

/-! ## Steps at the stop -/

namespace ByteCursor

/-- At the stop and beyond it, a step finds that the data has come to its end. -/
def StopsAtEnd (s : CursorStep α) : Prop :=
  ∀ ⦃c : ByteCursor⦄, c.isAtEnd = true → s c = .error (.malformed c.pos .endOfData) c

theorem StopsAtEnd.bind {s : CursorStep α} (h : StopsAtEnd s) (f : α → CursorStep β) :
    StopsAtEnd (s >>= f) := fun _ hc ↦ Data.bind_of_error (h hc) f

theorem stopsAtEnd_get_bind {f : ByteCursor → CursorStep α} (h : ∀ c, StopsAtEnd (f c)) :
    StopsAtEnd (get >>= f) := fun c hc ↦ h c hc

theorem stopsAtEnd_peek : StopsAtEnd peek := fun c hc ↦ by
  rw [peek, if_pos hc]
  rfl

theorem stopsAtEnd_byte : StopsAtEnd byte := stopsAtEnd_peek.bind _

theorem stopsAtEnd_sevenBitGroups (start : ℤ) (left : ℕ) :
    StopsAtEnd (sevenBitGroups start (left + 1)) := stopsAtEnd_byte.bind _

theorem stopsAtEnd_integer (value : List UInt8 → ℤ) (least most : ℤ) :
    StopsAtEnd (integer value least most) :=
  stopsAtEnd_get_bind fun c ↦ (stopsAtEnd_sevenBitGroups c.pos 4).bind _

theorem stopsAtEnd_name : StopsAtEnd name := (stopsAtEnd_integer _ _ _).bind _

/-! ## Reading -/

variable {c : ByteCursor} {s : CursorStep α} {d : Decoder β}

/-- **A cursor reads a grammar.** Inside its bytes, a step that does what a decoder does finds what
the grammar of the decoder has at the position and before the stop, and moves behind it. -/
theorem InBytes.reads (hc : c.InBytes) (hend : StopsAtEnd s) {value : β → α} {G : Grammar β}
    (hs : Mirrors c.data (fun a b ↦ a = value b) (ofCursor s) d) (hd : Decoder.Reads d G) {a : α}
    {c' : ByteCursor} :
    s c = .ok a c' ↔ ∃ b enc, a = value b ∧ G b enc ∧ c.Begins enc ∧ c' = c.behind enc := by
  by_cases hle : c.pos ≤ c.stop
  · have hshows := hc.shows_window hle
    have hsame := hs hshows
    constructor
    · intro h
      rw [ofCursor_eq_ok.mpr h] at hsame
      generalize hy : d c.window = y at hsame
      cases hsame with
      | ok hab hc' =>
        obtain ⟨enc, henc, hskips⟩ := hd.mp hy
        exact ⟨_, enc, hab, henc, (begins_iff hle).mpr ⟨_, hskips⟩, hshows.eq_behind hc' hskips⟩
    · rintro ⟨b, enc, rfl, henc, hbegins, rfl⟩
      obtain ⟨w', hskips⟩ := (begins_iff hle).mp hbegins
      have hrun : d c.window = .ok b w' := hd.mpr ⟨enc, henc, hskips⟩
      rw [hrun] at hsame
      generalize hx : ofCursor s c = x at hsame
      cases hsame with
      | ok hab hc' => rw [ofCursor_eq_ok.mp hx, hab, hshows.eq_behind hc' hskips]
      | tooLong hlong => exact absurd hc.length_lt (Nat.not_lt.mpr hlong)
  · -- Beyond the stop the step fails, and not even the empty encoding stands there.
    have hat : c.isAtEnd = true := decide_eq_true (by omega)
    rw [hend hat]
    constructor
    · nofun
    · rintro ⟨b, enc, -, -, hbegins, -⟩
      have hstop := hbegins.le_stop
      omega

/-- Inside its bytes, a step that does what a decoder does finds something or complains of malformed
bytes. -/
theorem InBytes.ok_or_malformed (hc : c.InBytes) (hend : StopsAtEnd s) {R : α → β → Prop}
    (hs : Mirrors c.data R (ofCursor s) d) :
    (∃ a c', s c = .ok a c') ∨ ∃ offset fault c', s c = .error (.malformed offset fault) c' := by
  by_cases hle : c.pos ≤ c.stop
  · have hsame := hs (hc.shows_window hle)
    generalize hx : ofCursor s c = x, d c.window = y at hsame
    cases hsame with
    | ok => exact .inl ⟨_, _, ofCursor_eq_ok.mp hx⟩
    | error =>
      obtain ⟨offset, fault, h⟩ := malformed_of_ofCursor_eq_error hx
      exact .inr ⟨offset, fault, _, h⟩
    | tooLong hlong => exact absurd hc.length_lt (Nat.not_lt.mpr hlong)
  · have hat : c.isAtEnd = true := decide_eq_true (by omega)
    exact .inr ⟨_, _, _, hend hat⟩

end ByteCursor

end CallGate.Wasm
