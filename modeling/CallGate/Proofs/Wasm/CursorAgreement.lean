import CallGate.Proofs.Wasm.CursorScan
import CallGate.Proofs.Wasm.Progress
import Mathlib.Data.Int.Notation

/-!
# The two scans agree

A cursor shows a window if the window is what lies between the position of the cursor and its stop.
From there a step of a cursor and a decoder go on together: both find the same, and the cursor shows
what is left of the window, or both stop for the same reason. `Mirrors` says so, and it goes up
from single bytes through integers, names and types to sections and whole modules.

So the scan on a cursor stops for no other reason than the scan on windows does, and a window has
nothing that could be missing: no byte, no type, no member of a group and no results. There is one
exception, which no machine can come to. A position beyond a word is refused, and for that the bytes
have to be more than can be counted in a word.
-/

namespace CallGate.Wasm

open Data

/-! ## Cursors and windows -/

/-- A cursor on some bytes shows a window: what lies between its position and its stop. -/
structure Shows (data : List UInt8) (c : ByteCursor) (w : Window) : Prop where
  data_eq : c.data = data
  pos_eq : c.pos = w.offset
  stop_eq : c.stop = w.stop
  exists_around : ∃ before after, before.length = w.offset ∧ data = before ++ (w.bytes ++ after)

/-- A step on a cursor and a decoder end alike: with values that belong together or for the same
reason, and with a cursor that shows the rest of the window. Bytes beyond counting excuse it. -/
inductive SameEnd {α β : Type} (data : List UInt8) (R : α → β → Prop) :
    EStateM.Result Stop ByteCursor α → EStateM.Result ScanError Window β → Prop
  | ok {a : α} {b : β} {c : ByteCursor} {w : Window} (hab : R a b) (hc : Shows data c w) :
      SameEnd data R (.ok a c) (.ok b w)
  | error {e : ScanError} {c : ByteCursor} {w : Window} (hc : Shows data c w) :
      SameEnd data R (.error (.ofScanError e) c) (.error e w)
  | tooLong {c : ByteCursor} {y : EStateM.Result ScanError Window β}
      (h : 0x8000000000000000 ≤ data.length) :
      SameEnd data R (.error (.noByte .tooLarge) c) y

/-- A step does on every cursor what a decoder does on the window that the cursor shows. -/
def Mirrors {α β : Type} (data : List UInt8) (R : α → β → Prop) (s : CursorScan α)
    (d : Decoder β) : Prop :=
  ∀ ⦃c : ByteCursor⦄ ⦃w : Window⦄, Shows data c w → SameEnd data R (s c) (d w)

variable {data : List UInt8}

namespace Shows

variable {c : ByteCursor} {w : Window}

theorem remaining_eq (h : Shows data c w) : c.remaining = w.bytes.length := by
  rw [ByteCursor.remaining, h.stop_eq, h.pos_eq, Window.stop]
  omega

theorem isAtEnd_iff (h : Shows data c w) : c.isAtEnd = true ↔ w.bytes = [] := by
  have hremaining := h.remaining_eq
  rw [ByteCursor.remaining] at hremaining
  rw [ByteCursor.isAtEnd, decide_eq_true_eq, ← List.length_eq_zero_iff]
  omega

/-- Moved on by some bytes, a cursor shows what is behind them. -/
theorem skip (h : Shows data c w) {count : ℕ} (hcount : count ≤ w.bytes.length) :
    Shows data { c with pos := c.pos + count } ⟨w.offset + count, w.bytes.drop count⟩ := by
  obtain ⟨hdata, hpos, hstop, before, after, hbefore, hall⟩ := h
  refine ⟨hdata, ?_, ?_, before ++ w.bytes.take count, after, ?_, ?_⟩
  · simp only [hpos, Int.natCast_add]
  · simp only [hstop, Window.stop, List.length_drop]
    omega
  · rw [List.length_append, hbefore, List.length_take, Nat.min_eq_left hcount]
  · rw [hall, List.append_assoc, ← List.append_assoc (w.bytes.take count), List.take_append_drop]

theorem slice_eq (h : Shows data c w) {count : ℕ} (hcount : count ≤ w.bytes.length) :
    ByteCursor.slice c.data c.pos (c.pos + count) = w.bytes.take count := by
  obtain ⟨hdata, hpos, hstop, before, after, hbefore, hall⟩ := h
  have hstart : ¬ (w.offset : ℤ) < 0 := by omega
  have hend : ¬ (w.offset : ℤ) + count < 0 := by omega
  have hsum : ((w.offset : ℤ) + count).toNat - (w.offset : ℤ).toNat = count := by omega
  rw [hdata, hpos, ByteCursor.slice]
  simp only [hstart, hend, if_false]
  rw [List.drop_take, hsum, hall, Int.toNat_natCast, ← hbefore, List.drop_left,
    List.take_append_of_le_length hcount]

/-- There is a byte where the cursor stands, unless it stands too far out. -/
theorem itemAt_eq (h : Shows data c w) {b : UInt8} {rest : List UInt8} (hw : w.bytes = b :: rest) :
    itemAt c.data c.pos = .ok b ∨
      itemAt c.data c.pos = .error .tooLarge ∧ 0x8000000000000000 ≤ data.length := by
  obtain ⟨hdata, hpos, hstop, before, after, hbefore, hall⟩ := h
  have hlength : w.offset < data.length := by
    rw [hall, hw, List.length_append, List.length_append, List.length_cons]
    omega
  have hitem : data[w.offset] = b := by
    simp only [hall, hw, ← hbefore]
    simp
  have hstart : ¬ (w.offset : ℤ) < 0 := by omega
  have hplace : 0 ≤ (w.offset : ℤ) ∧ (w.offset : ℤ).toNat < data.length := by omega
  rw [hdata, hpos, itemAt, placeAt]
  cases hfits : fitsWord w.offset with
  | true =>
    left
    simp only [hstart, if_false, Bool.not_true, Bool.false_eq_true, hplace, and_self, dif_pos]
    exact congrArg Except.ok hitem
  | false =>
    right
    refine ⟨by simp [Except.map], ?_⟩
    have hword : ¬ (w.offset : ℤ) < 0x8000000000000000 := fun h ↦ by simp [fitsWord, h] at hfits
    omega

theorem peek_of_nil (h : Shows data c w) (hw : w.bytes = []) :
    ByteCursor.peek c = .error (.malformed w.offset .endOfData) c := by
  rw [ByteCursor.peek, if_pos (h.isAtEnd_iff.mpr hw), ← h.pos_eq]
  rfl

theorem peek_of_cons (h : Shows data c w) {b : UInt8} {rest : List UInt8}
    (hw : w.bytes = b :: rest) : ByteCursor.peek c = .ok b c ∨
      ByteCursor.peek c = .error (.position .tooLarge) c ∧ 0x8000000000000000 ≤ data.length := by
  have hnot : ¬ c.isAtEnd = true := by
    rw [h.isAtEnd_iff, hw]
    exact List.cons_ne_nil b rest
  rw [ByteCursor.peek, if_neg hnot]
  rcases h.itemAt_eq hw with hitem | ⟨hitem, hlong⟩
  · exact .inl (by rw [hitem])
  · exact .inr ⟨by rw [hitem], hlong⟩

end Shows

/-! ## Sequences -/

section

variable {α β γ δ : Type} {R : α → β → Prop} {S : γ → δ → Prop}

theorem mirrors_pure {a : α} {b : β} (h : R a b) : Mirrors data R (pure a) (pure b) :=
  fun _ _ hc ↦ .ok h hc

theorem Mirrors.bind {s : CursorScan α} {d : Decoder β} {f : α → CursorScan γ} {g : β → Decoder δ}
    (hs : Mirrors data R s d) (hf : ∀ a b, R a b → Mirrors data S (f a) (g b)) :
    Mirrors data S (s >>= f) (d >>= g) := by
  intro c w hc
  have hfirst := hs hc
  generalize hx : s c = x, hy : d w = y at hfirst
  cases hfirst with
  | ok hab hc' =>
    rw [bind_of_ok hx, bind_of_ok hy]
    exact hf _ _ hab hc'
  | error hc' =>
    rw [bind_of_error hx, bind_of_error hy]
    exact .error hc'
  | tooLong h =>
    rw [bind_of_error hx]
    exact .tooLong h

theorem Mirrors.map {s : CursorScan α} {d : Decoder β} {f : α → γ} {g : β → δ}
    (hs : Mirrors data R s d) (hf : ∀ a b, R a b → S (f a) (g b)) :
    Mirrors data S (do return f (← s)) (do return g (← d)) :=
  hs.bind fun a b hab ↦ mirrors_pure (hf a b hab)

/-- Both sides of a choice are mirrored, so the choice is. -/
theorem Mirrors.ite {p : Prop} [Decidable p] {s s' : CursorScan α} {d d' : Decoder β}
    (hs : Mirrors data R s d) (hs' : Mirrors data R s' d') :
    Mirrors data R (if p then s else s') (if p then d else d') := by
  split
  · exact hs
  · exact hs'

theorem mirrors_throw (e : ScanError) :
    Mirrors data R (throw (.ofScanError e)) (throw e) :=
  fun _ _ hc ↦ .error hc

theorem mirrors_failAt (offset : ℕ) (fault : Fault) :
    Mirrors data R (CursorScan.failAt offset fault) (Decoder.failAt offset fault) :=
  mirrors_throw (.malformed offset fault)

theorem mirrors_position :
    Mirrors data (fun (p : ℤ) (offset : ℕ) ↦ p = offset) CursorScan.position Decoder.position :=
  fun _ _ hc ↦ .ok hc.pos_eq hc

end

/-! ## Bytes -/

section

open CursorScan

variable {α β : Type} {R : α → β → Prop}

theorem ofCursor_of_ok {s : CursorStep α} {c c' : ByteCursor} {a : α} (h : s c = .ok a c') :
    ofCursor s c = .ok a c' := by
  rw [ofCursor, h]

theorem ofCursor_of_error {s : CursorStep α} {c c' : ByteCursor} {e : CursorError}
    (h : s c = .error e c') : ofCursor s c = .error (.ofCursorError e) c' := by
  rw [ofCursor, h]

theorem mirrors_peek : Mirrors data Eq (ofCursor ByteCursor.peek) Decoder.peek := by
  intro c w hc
  cases hw : w.bytes with
  | nil =>
    rw [ofCursor_of_error (hc.peek_of_nil hw), Decoder.peek, hw]
    exact .error (e := .malformed w.offset .endOfData) hc
  | cons b rest =>
    rcases hc.peek_of_cons hw with hpeek | ⟨hpeek, hlong⟩
    · rw [ofCursor_of_ok hpeek, Decoder.peek, hw]
      exact .ok rfl hc
    · rw [ofCursor_of_error hpeek]
      exact .tooLong hlong

theorem mirrors_byte : Mirrors data Eq (ofCursor ByteCursor.byte) Decoder.byte := by
  intro c w hc
  cases hw : w.bytes with
  | nil =>
    have hbyte : ByteCursor.byte c = .error (.malformed w.offset .endOfData) c :=
      bind_of_error (hc.peek_of_nil hw) _
    rw [ofCursor_of_error hbyte, Decoder.byte, hw]
    exact .error (e := .malformed w.offset .endOfData) hc
  | cons b rest =>
    rcases hc.peek_of_cons hw with hpeek | ⟨hpeek, hlong⟩
    · have hbyte : ByteCursor.byte c = .ok b { c with pos := c.pos + 1 } := bind_of_ok hpeek _
      have hone : 1 ≤ w.bytes.length := by
        rw [hw]
        exact Nat.le_add_left 1 rest.length
      have hskip := hc.skip hone
      rw [ofCursor_of_ok hbyte, Decoder.byte, hw]
      exact .ok rfl (by rwa [hw] at hskip)
    · have hbyte : ByteCursor.byte c = .error (.position .tooLarge) c := bind_of_error hpeek _
      rw [ofCursor_of_error hbyte]
      exact .tooLong hlong

theorem ByteCursor.bytes_apply (count : ℤ) (c : ByteCursor) :
    ByteCursor.bytes count c =
      if c.remaining < count then .error (.malformed c.pos (.tooFewBytes count c.remaining)) c
      else .ok (slice c.data c.pos (c.pos + count)) { c with pos := c.pos + count } := by
  have hbytes : ByteCursor.bytes count c =
      (if c.remaining < count then failHere (.tooFewBytes count c.remaining)
      else do
        skip count
        return slice c.data c.pos (c.pos + count)) c := rfl
  rw [hbytes]
  split <;> rfl

theorem ByteCursor.part_apply (size : ℤ) (c : ByteCursor) :
    part size c =
      if c.remaining < size then .error (.malformed c.pos (.sectionTooLarge size c.remaining)) c
      else .ok { c with stop := c.pos + size } { c with pos := c.pos + size } := by
  have hpart : part size c =
      (if c.remaining < size then failHere (.sectionTooLarge size c.remaining)
      else do
        skip size
        return { c with stop := c.pos + size }) c := rfl
  rw [hpart]
  split <;> rfl

/-- The next bytes, as many as there have to be. -/
theorem Shows.bytes_eq {c : ByteCursor} {w : Window} (h : Shows data c w) (count : ℕ) :
    ByteCursor.bytes count c =
      if w.bytes.length < count then
        .error (.malformed w.offset (.tooFewBytes count w.bytes.length)) c
      else .ok (w.bytes.take count) { c with pos := c.pos + count } := by
  rw [ByteCursor.bytes_apply, h.remaining_eq]
  by_cases hcount : w.bytes.length < count
  · rw [if_pos (Int.ofNat_lt.mpr hcount), if_pos hcount, ← h.pos_eq]
  · rw [if_neg (mt Int.ofNat_lt.mp hcount), if_neg hcount, ← h.slice_eq (Nat.le_of_not_lt hcount)]

theorem Shows.exists_bytes_eq_ok {c : ByteCursor} {offset : ℕ} {content : List UInt8}
    (h : Shows data c ⟨offset, content⟩) (count : ℕ) (hcount : count ≤ content.length) :
    ∃ c', Shows data c' ⟨offset + count, content.drop count⟩ ∧
      ByteCursor.bytes count c = .ok (content.take count) c' :=
  ⟨_, h.skip hcount, (h.bytes_eq count).trans (if_neg (Nat.not_lt.mpr hcount))⟩

theorem mirrors_bytes (count : ℕ) :
    Mirrors data Eq (ofCursor (ByteCursor.bytes count)) (Decoder.bytes count) := by
  intro c w hc
  have hstep := hc.bytes_eq count
  rw [Decoder.bytes]
  split at hstep
  · next hcount =>
    rw [ofCursor_of_error hstep, if_pos hcount]
    exact .error (e := .malformed w.offset (.tooFewBytes count w.bytes.length)) hc
  · next hcount =>
    rw [ofCursor_of_ok hstep, if_neg hcount]
    exact .ok rfl (hc.skip (Nat.le_of_not_lt hcount))

/-- The next bytes as a cursor of their own, which shows them and nothing else. -/
theorem mirrors_part (size : ℕ) :
    Mirrors data (Shows data) (ofCursor (ByteCursor.part size)) (Decoder.window size) := by
  intro c w hc
  have hpart := ByteCursor.part_apply size c
  rw [hc.remaining_eq] at hpart
  rw [Decoder.window]
  by_cases hsize : w.bytes.length < size
  · rw [if_pos (Int.ofNat_lt.mpr hsize)] at hpart
    rw [ofCursor_of_error hpart, hc.pos_eq, if_pos hsize]
    exact .error (e := .malformed w.offset (.sectionTooLarge size w.bytes.length)) hc
  · rw [if_neg (mt Int.ofNat_lt.mp hsize)] at hpart
    rw [ofCursor_of_ok hpart, if_neg hsize]
    have hle : size ≤ w.bytes.length := Nat.le_of_not_lt hsize
    refine .ok ?_ (hc.skip hle)
    obtain ⟨hdata, hpos, hstop, before, after, hbefore, hall⟩ := hc
    refine ⟨hdata, hpos, ?_, before, w.bytes.drop size ++ after, hbefore, ?_⟩
    · simp only [hpos, Window.stop, List.length_take, Nat.min_eq_left hle, Int.natCast_add]
    · rw [hall, ← List.append_assoc (w.bytes.take size), List.take_append_drop]

theorem mirrors_expectEnd (place : String) :
    Mirrors data Eq (ofCursor (ByteCursor.expectEnd place)) (Decoder.expectEnd place) := by
  intro c w hc
  have hstep : ByteCursor.expectEnd place c =
      (if c.isAtEnd then return () else ByteCursor.failHere (.trailingBytes c.remaining place)) c :=
    rfl
  have hend : c.isAtEnd = true ↔ w.bytes.isEmpty = true := by
    rw [hc.isAtEnd_iff, List.isEmpty_iff]
  rw [Decoder.expectEnd]
  by_cases hempty : w.bytes.isEmpty = true
  · rw [if_pos (hend.mpr hempty)] at hstep
    rw [ofCursor_of_ok hstep, if_pos hempty]
    exact .ok rfl hc
  · rw [if_neg (mt hend.mp hempty), hc.remaining_eq] at hstep
    rw [ofCursor_of_error hstep, hc.pos_eq, if_neg hempty]
    exact .error (e := .malformed w.offset (.trailingBytes w.bytes.length place)) hc

/-! ## Integers and names -/

theorem ofCursor_bind (s : CursorStep α) (f : α → CursorStep β) :
    ofCursor (s >>= f) = ofCursor s >>= fun a ↦ ofCursor (f a) := by
  funext c
  cases h : s c with
  | ok a c' => rw [bind_of_ok (ofCursor_of_ok h), ofCursor, bind_of_ok h, ofCursor]
  | error e c' => rw [bind_of_error (ofCursor_of_error h), ofCursor_of_error (bind_of_error h f)]

/-- A position that is looked at for later is the offset in the window. -/
theorem mirrors_get_bind {f : ByteCursor → CursorStep α} {g : ℕ → Decoder β}
    (h : ∀ (c : ByteCursor) (offset : ℕ), c.pos = offset →
      Mirrors data R (ofCursor (f c)) (g offset)) :
    Mirrors data R (ofCursor (get >>= f)) (Decoder.position >>= g) :=
  fun c w hc ↦ h c w.offset hc.pos_eq hc

theorem mirrors_sevenBitGroups (start left : ℕ) :
    Mirrors data Eq (ofCursor (ByteCursor.sevenBitGroups start left))
      (Decoder.sevenBitGroups start left) := by
  induction left with
  | zero => exact mirrors_failAt start .integerTooLong
  | succ left ih =>
    rw [ByteCursor.sevenBitGroups, Decoder.sevenBitGroups, ofCursor_bind]
    refine mirrors_byte.bind fun b _ hb ↦ ?_
    subst hb
    split
    · exact mirrors_pure rfl
    · rw [ofCursor_bind]
      refine ih.bind fun groups _ hgroups ↦ ?_
      subst hgroups
      exact mirrors_pure rfl

/-- An integer between two bounds, which a window says in its own way. -/
theorem mirrors_integer {S : ℤ → α → Prop} {value : List UInt8 → ℤ} {least most : ℤ}
    {value' : List UInt8 → α} {inRange : List UInt8 → Prop} [DecidablePred inRange]
    (hrange : ∀ groups, least ≤ value groups ∧ value groups ≤ most ↔ inRange groups)
    (hvalue : ∀ groups, S (value groups) (value' groups)) :
    Mirrors data S (ofCursor (ByteCursor.integer value least most))
      (do
        let start ← Decoder.position
        let groups ← Decoder.sevenBitGroups start 5
        if inRange groups then return value' groups
        else Decoder.failAt start .integerTooLarge) := by
  refine mirrors_get_bind fun c start hstart ↦ ?_
  rw [hstart, ofCursor_bind]
  refine (mirrors_sevenBitGroups start 5).bind fun groups _ hgroups ↦ ?_
  subst hgroups
  by_cases h : inRange groups
  · rw [if_pos ((hrange groups).mpr h), if_pos h]
    exact mirrors_pure (hvalue groups)
  · rw [if_neg (mt (hrange groups).mp h), if_neg h]
    exact mirrors_failAt start .integerTooLarge

theorem mirrors_u32 :
    Mirrors data (fun (v : ℤ) (n : ℕ) ↦ v = n) (ofCursor ByteCursor.u32) Decoder.u32 :=
  mirrors_integer (fun groups ↦ by omega) fun _ ↦ rfl

theorem mirrors_s33 : Mirrors data Eq (ofCursor ByteCursor.s33) Decoder.s33 :=
  mirrors_integer (fun groups ↦ by omega) fun _ ↦ rfl

theorem mirrors_name : Mirrors data Eq (ofCursor ByteCursor.name) Decoder.name := by
  rw [ByteCursor.name, ofCursor_bind]
  refine mirrors_u32.bind fun v length hv ↦ ?_
  subst hv
  refine mirrors_get_bind fun c start hstart ↦ ?_
  rw [hstart, ofCursor_bind]
  refine (mirrors_bytes length).bind fun content _ hcontent ↦ ?_
  subst hcontent
  cases String.fromUTF8? content.toByteArray with
  | some text => exact mirrors_pure rfl
  | none => exact mirrors_failAt start .malformedUtf8

end

/-! ## Items -/

section

open CursorScan

variable {α : Type} {item : CursorScan α} {item' : Decoder α}

theorem mirrors_repeated (h : Mirrors data Eq item item') (count : ℕ) :
    Mirrors data Eq (CursorScan.repeated item count) (Decoder.repeated item' count) := by
  induction count with
  | zero => exact mirrors_pure rfl
  | succ count ih =>
    refine h.bind fun first _ hfirst ↦ ih.bind fun rest _ hrest ↦ mirrors_pure ?_
    rw [hfirst, hrest]

theorem mirrors_vector (h : Mirrors data Eq item item') :
    Mirrors data Eq (CursorScan.vector item) (Decoder.vector item') := by
  refine mirrors_u32.bind fun v count hv ↦ ?_
  rw [hv, Int.toNat_natCast]
  exact mirrors_repeated h count

theorem mirrors_wholeVector (h : Mirrors data Eq item item') (place : String) :
    Mirrors data Eq (CursorScan.wholeVector item place) (Wasm.wholeVector item' place) := by
  refine (mirrors_vector h).bind fun items _ hitems ↦ ?_
  exact (mirrors_expectEnd place).bind fun _ _ _ ↦ mirrors_pure hitems

theorem mirrors_readIndex : Mirrors data Eq readIndex Decoder.u32 := by
  rw [← bind_pure Decoder.u32]
  refine mirrors_u32.bind fun v count hv ↦ mirrors_pure ?_
  rw [hv, Int.toNat_natCast]

theorem mirrors_heapType : Mirrors data Eq HeapType.read HeapType.decode := by
  refine mirrors_peek.bind fun b _ hb ↦ ?_
  subst hb
  cases AbstractHeap.ofByte? b with
  | some heap => exact mirrors_byte.bind fun _ _ _ ↦ mirrors_pure rfl
  | none =>
    refine mirrors_position.bind fun p start hp ↦ mirrors_s33.bind fun index _ hindex ↦ ?_
    subst hp hindex
    exact .ite (mirrors_failAt start _) (mirrors_pure rfl)

theorem mirrors_valueType : Mirrors data Eq ValueType.read ValueType.decode := by
  refine mirrors_position.bind fun p start hp ↦ mirrors_byte.bind fun b _ hb ↦ ?_
  subst hp hb
  cases NumType.ofByte? b with
  | some type => exact mirrors_pure rfl
  | none =>
    cases AbstractHeap.ofByte? b with
    | some heap => exact mirrors_pure rfl
    | none =>
      exact .ite (mirrors_heapType.map fun _ _ hheap ↦ by rw [hheap]) (mirrors_failAt start _)

theorem mirrors_storageType : Mirrors data Eq StorageType.read StorageType.decode := by
  refine mirrors_peek.bind fun b _ hb ↦ ?_
  subst hb
  cases PackedType.ofByte? b with
  | some type => exact mirrors_byte.bind fun _ _ _ ↦ mirrors_pure rfl
  | none => exact mirrors_valueType.map fun _ _ htype ↦ by rw [htype]

theorem mirrors_fieldType : Mirrors data Eq FieldType.read FieldType.decode := by
  refine mirrors_storageType.bind fun storage _ hstorage ↦ ?_
  refine mirrors_position.bind fun p start hp ↦ mirrors_byte.bind fun b _ hb ↦ ?_
  subst hstorage hp hb
  exact .ite (mirrors_pure rfl) (.ite (mirrors_pure rfl) (mirrors_failAt start _))

theorem mirrors_compositeType : Mirrors data Eq CompositeType.read CompositeType.decode := by
  refine mirrors_position.bind fun p start hp ↦ mirrors_byte.bind fun form _ hform ↦ ?_
  subst hp hform
  have hvalues : Mirrors data Eq (CursorScan.vector ValueType.read)
      (Decoder.vector ValueType.decode) := mirrors_vector mirrors_valueType
  refine .ite ?function (.ite ?struct (.ite ?array (mirrors_failAt start _)))
  case function =>
    refine hvalues.bind fun params _ hparams ↦ hvalues.bind fun results _ hresults ↦ ?_
    subst hparams hresults
    exact mirrors_pure rfl
  case struct => exact (mirrors_vector mirrors_fieldType).map fun _ _ hfields ↦ by rw [hfields]
  case array => exact mirrors_fieldType.map fun _ _ helement ↦ by rw [helement]

theorem mirrors_subType : Mirrors data Eq SubType.read SubType.decode := by
  refine mirrors_peek.bind fun b _ hb ↦ ?_
  subst hb
  refine .ite ?_ (mirrors_compositeType.map fun _ _ hcomposite ↦ by rw [hcomposite])
  refine mirrors_byte.bind fun _ _ _ ↦ ?_
  refine (mirrors_vector mirrors_readIndex).bind fun supertypes _ hsupertypes ↦ ?_
  subst hsupertypes
  exact mirrors_compositeType.map fun _ _ hcomposite ↦ by rw [hcomposite]

theorem mirrors_recGroup : Mirrors data Eq RecGroup.read RecGroup.decode := by
  refine mirrors_peek.bind fun b _ hb ↦ ?_
  subst hb
  refine .ite ?_ (mirrors_subType.map fun _ _ htype ↦ by rw [htype])
  refine mirrors_byte.bind fun _ _ _ ↦ ?_
  exact (mirrors_vector mirrors_subType).map fun _ _ htypes ↦ by rw [htypes]

theorem mirrors_importEntry : Mirrors data Eq ImportEntry.read ImportEntry.decode := by
  refine mirrors_name.bind fun module _ hmodule ↦ mirrors_name.bind fun name _ hname ↦ ?_
  refine mirrors_position.bind fun p start hp ↦ mirrors_byte.bind fun b _ hb ↦ ?_
  subst hmodule hname hp hb
  cases hkind : ImportKind.ofByte? b with
  | none => exact mirrors_failAt start _
  | some kind =>
    cases kind with
    | function => exact mirrors_readIndex.map fun _ _ hindex ↦ by rw [hindex]
    | table | memory | global | tag => exact mirrors_throw (.nonFunctionImport module name _)

/-! ## Sections -/

/-- A section on a cursor and in a window. -/
structure SameSection (data : List UInt8) (s : CursorSection) (s' : Section) : Prop where
  offset_eq : s.offset = s'.offset
  id_eq : s.id = s'.id
  payload : Shows data s.payload s'.payload

theorem mirrors_section : Mirrors data (SameSection data) CursorSection.read Section.decode := by
  refine mirrors_position.bind fun p offset hp ↦ mirrors_byte.bind fun id _ hid ↦ ?_
  refine mirrors_u32.bind fun v size hv ↦ ?_
  subst hid hv
  exact (mirrors_part size).map fun payload window hpayload ↦ ⟨hp, rfl, hpayload⟩

/-- What is found on a cursor and in a window, or why nothing is. -/
inductive SameAnswer (data : List UInt8) : Except Stop α → Except ScanError α → Prop
  | ok {a : α} : SameAnswer data (.ok a) (.ok a)
  | error {e : ScanError} : SameAnswer data (.error (.ofScanError e)) (.error e)
  | tooLong {y : Except ScanError α} (h : 0x8000000000000000 ≤ data.length) :
      SameAnswer data (.error (.noByte .tooLarge)) y

end

section

open CursorScan

variable {α β : Type}

theorem Mirrors.valueAt {s : CursorScan α} {d : Decoder α} (h : Mirrors data Eq s d)
    {c : ByteCursor} {w : Window} (hc : Shows data c w) :
    SameAnswer data (s.valueAt c) (d.value w) := by
  have hend := h hc
  rw [CursorScan.valueAt, Decoder.value]
  generalize s c = x, d w = y at hend
  cases hend with
  | ok hab => exact hab ▸ .ok
  | error => exact .error
  | tooLong h => exact .tooLong h

theorem SameAnswer.bind {x : Except Stop α} {y : Except ScanError α} (hxy : SameAnswer data x y)
    {f : α → Except Stop β} {g : α → Except ScanError β}
    (hfg : ∀ a, SameAnswer data (f a) (g a)) : SameAnswer data (x >>= f) (y >>= g) := by
  cases hxy with
  | ok => exact hfg _
  | error => exact .error
  | tooLong h => exact .tooLong h

theorem SameAnswer.ite {p : Prop} [Decidable p] {x x' : Except Stop α} {y y' : Except ScanError α}
    (hxy : SameAnswer data x y) (hxy' : SameAnswer data x' y') :
    SameAnswer data (if p then x else x') (if p then y else y') := by
  split
  · exact hxy
  · exact hxy'

theorem sameAnswer_add (d : Declarations) {s : CursorSection} {s' : Section}
    (h : SameSection data s s') : SameAnswer data (d.addCursor s) (d.add s') := by
  obtain ⟨hoffset, hid, hpayload⟩ := h
  have hmalformed (fault : Fault) :
      SameAnswer (α := Declarations) data (.error (.malformed s.offset fault))
        (.error (.malformed s'.offset fault)) := by
    rw [hoffset]
    exact .error (e := .malformed s'.offset fault)
  rw [Declarations.addCursor, Declarations.add, hid]
  refine .ite ((mirrors_name.valueAt hpayload).bind fun _ ↦ .ok) ?_
  cases sectionRank? s'.id with
  | none => exact hmalformed _
  | some rank =>
    refine .ite (hmalformed _) (.ite ?types (.ite ?imports .ok))
    case types => exact ((mirrors_wholeVector mirrors_recGroup _).valueAt hpayload).bind fun _ ↦ .ok
    case imports =>
      exact ((mirrors_wholeVector mirrors_importEntry _).valueAt hpayload).bind fun _ ↦ .ok

namespace Declarations

variable {d : Declarations} {c c' : ByteCursor} {w w' : Window}

theorem addAllCursor_of_error {e : Stop} (hend : ¬ c.isAtEnd = true)
    (h : CursorSection.read c = .error e c') : d.addAllCursor c = .error e := by
  rw [addAllCursor, dif_neg hend]
  split
  · next h' =>
    rw [h] at h'
    cases h'
    rfl
  · next h' =>
    rw [h] at h'
    cases h'

theorem addAllCursor_of_ok {s : CursorSection} (hend : ¬ c.isAtEnd = true)
    (h : CursorSection.read c = .ok s c') :
    d.addAllCursor c = d.addCursor s >>= fun d ↦ d.addAllCursor c' := by
  rw [addAllCursor, dif_neg hend]
  split
  · next h' =>
    rw [h] at h'
    cases h'
  · next h' =>
    rw [h] at h'
    cases h'
    cases d.addCursor s <;> rfl

theorem addAll_of_error {e : ScanError} (hend : ¬ w.bytes.isEmpty = true)
    (h : Section.decode w = .error e w') : d.addAll w = .error e := by
  rw [addAll, if_neg hend]
  split
  · next h' =>
    rw [h] at h'
    cases h'
    rfl
  · next h' =>
    rw [h] at h'
    cases h'

theorem addAll_of_ok {s : Section} (hend : ¬ w.bytes.isEmpty = true)
    (h : Section.decode w = .ok s w') : d.addAll w = d.add s >>= fun d ↦ d.addAll w' := by
  rw [addAll, if_neg hend]
  split
  · next h' =>
    rw [h] at h'
    cases h'
  · next h' =>
    rw [h] at h'
    cases h'
    cases d.add s <;> rfl

end Declarations

theorem sameAnswer_addAll (d : Declarations) {c : ByteCursor} {w : Window} (hc : Shows data c w) :
    SameAnswer data (d.addAllCursor c) (d.addAll w) := by
  -- The induction is on the bytes that are left, of which each section uses one.
  induction hlen : w.bytes.length using Nat.strongRecOn generalizing d c w with
  | ind len ih =>
    subst hlen
    have hend : c.isAtEnd = true ↔ w.bytes.isEmpty = true := by
      rw [hc.isAtEnd_iff, List.isEmpty_iff]
    by_cases hempty : w.bytes.isEmpty = true
    · rw [Declarations.addAllCursor, Declarations.addAll, dif_pos (hend.mpr hempty), if_pos hempty]
      exact .ok
    · have hsection := mirrors_section hc
      generalize hread : CursorSection.read c = x, hdecode : Section.decode w = y at hsection
      cases hsection with
      | error =>
        rw [Declarations.addAllCursor_of_error (mt hend.mp hempty) hread,
          Declarations.addAll_of_error hempty hdecode]
        exact .error
      | tooLong h =>
        rw [Declarations.addAllCursor_of_error (mt hend.mp hempty) hread]
        exact .tooLong h
      | ok hs hc' =>
        rw [Declarations.addAllCursor_of_ok (mt hend.mp hempty) hread,
          Declarations.addAll_of_ok hempty hdecode]
        have hused := consumes_section hdecode
        exact (sameAnswer_add d hs).bind fun d' ↦ ih _ hused d' hc' rfl

/-! ## Modules -/

theorem shows_whole (bytes : List UInt8) :
    Shows bytes ⟨bytes, 0, bytes.length⟩ (.ofBytes bytes) where
  data_eq := rfl
  pos_eq := rfl
  stop_eq := by rw [Window.stop, Window.ofBytes, Nat.zero_add]
  exists_around := ⟨[], [], rfl, by rw [List.nil_append, List.append_nil, Window.ofBytes]⟩

theorem readHeader_apply (c : ByteCursor) :
    readHeader c =
      (if c.remaining < 8 then failAt 0 .noMagic
      else ofCursor (ByteCursor.bytes 4) >>= fun first ↦
        if first ≠ magic then failAt 0 .noMagic
        else ofCursor (ByteCursor.bytes 4) >>= fun second ↦
          if second ≠ version then failAt 4 (.version second) else pure ()) c := rfl

/-- Where the bytes are too few for a header, none is looked for. -/
theorem readHeader_of_short {c : ByteCursor} (hshort : c.remaining < 8) :
    readHeader c = .error (.malformed 0 .noMagic) c := by
  rw [readHeader_apply, if_pos hshort]
  rfl

/-- What the header is like, from its first four bytes and the four behind them. -/
theorem readHeader_of_long {c c₄ c₈ : ByteCursor} {first second : List UInt8}
    (hlong : ¬ c.remaining < 8) (hfirst : ByteCursor.bytes 4 c = .ok first c₄)
    (hsecond : ByteCursor.bytes 4 c₄ = .ok second c₈) :
    readHeader c =
      if first ≠ magic then .error (.malformed 0 .noMagic) c₄
      else if second ≠ version then .error (.malformed 4 (.version second)) c₈
      else .ok () c₈ := by
  rw [readHeader_apply, if_neg hlong, bind_of_ok (ofCursor_of_ok hfirst)]
  by_cases hmagic : first ≠ magic
  · rw [if_pos hmagic, if_pos hmagic]
    rfl
  · rw [if_neg hmagic, if_neg hmagic, bind_of_ok (ofCursor_of_ok hsecond)]
    by_cases hversion : second ≠ version
    · rw [if_pos hversion, if_pos hversion]
      rfl
    · rw [if_neg hversion, if_neg hversion]
      rfl

theorem sameAnswer_ofBytes (bytes : List UInt8) :
    SameAnswer bytes (Declarations.ofCursor ⟨bytes, 0, bytes.length⟩)
      (Declarations.ofBytes bytes) := by
  have hc : Shows bytes ⟨bytes, 0, bytes.length⟩ ⟨0, bytes⟩ := shows_whole bytes
  have hremaining : (⟨bytes, 0, bytes.length⟩ : ByteCursor).remaining = bytes.length :=
    hc.remaining_eq
  rw [Declarations.ofCursor, Declarations.ofBytes]
  generalize (⟨bytes, 0, bytes.length⟩ : ByteCursor) = c at hc hremaining
  by_cases hshort : bytes.length < 8
  · rw [readHeader_of_short (by omega), if_pos (.inl hshort)]
    exact .error (e := .malformed 0 .noMagic)
  · obtain ⟨c₄, hc₄, hfirst⟩ := hc.exists_bytes_eq_ok 4 (by omega)
    have hrest : 4 ≤ (bytes.drop 4).length := by
      rw [List.length_drop]
      omega
    obtain ⟨c₈, hc₈, hsecond⟩ := hc₄.exists_bytes_eq_ok 4 hrest
    rw [List.drop_drop] at hc₈
    rw [readHeader_of_long (by omega) hfirst hsecond]
    by_cases hmagic : bytes.take 4 ≠ magic
    · rw [if_pos hmagic, if_pos (.inr hmagic)]
      exact .error (e := .malformed 0 .noMagic)
    · rw [if_neg hmagic, if_neg (not_or.mpr ⟨hshort, hmagic⟩)]
      by_cases hversion : (bytes.drop 4).take 4 ≠ version
      · rw [if_pos hversion, if_pos hversion]
        exact .error (e := .malformed 4 (.version ((bytes.drop 4).take 4)))
      · rw [if_neg hversion, if_neg hversion]
        exact sameAnswer_addAll {} hc₈

end

end CallGate.Wasm
