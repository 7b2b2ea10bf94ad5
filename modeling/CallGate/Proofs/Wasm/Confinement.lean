import CallGate.Proofs.Data.Outcome
import CallGate.Proofs.Wasm.ModuleGrammar

/-!
# Where a decoder gives up

An error about malformed bytes carries the offset at which they were found, and each step of a
decoder chooses that offset by itself: where it stands, or where the thing began that it was in the
middle of. Whichever it is, the offset lies in the part of the window that was still to be read.

`Confined other low d` says so of a decoder, together with what is needed to put decoders in
sequence: a decoder that succeeds has only moved forward in its window. The parameter `low` is for
offsets that were taken earlier. A decoder that takes the position may blame it from then on, so
what follows is confined from that position (`confined_position_bind`), and as the position was no
further back than `low`, the whole is confined from `low`. The errors that `other` admits have no
offset; an import entry has one of them.

The sections of a module are windows inside the module, so the walk over them is confined as well
(`addAll_eq_error`). What can be wrong with a section is said once, in `Declarations.Rejects`.
-/

namespace CallGate.Wasm

open Decoder Data

/-! ## Errors and their offsets -/

/-- The error is about malformed bytes, at an offset between two others. -/
def ScanError.IsWithin (low high : ℕ) (e : ScanError) : Prop :=
  ∃ offset fault, e = .malformed offset fault ∧ low ≤ offset ∧ offset ≤ high

/-- The error is about an import that is no function. -/
def ScanError.IsForeign (e : ScanError) : Prop :=
  ∃ module name kind, e = .nonFunctionImport module name kind

theorem ScanError.IsWithin.mono {low high low' high' : ℕ} {e : ScanError}
    (h : e.IsWithin low high) (hlow : low' ≤ low) (hhigh : high ≤ high') :
    e.IsWithin low' high' := by
  obtain ⟨offset, fault, rfl, hmin, hmax⟩ := h
  exact ⟨offset, fault, rfl, hlow.trans hmin, hmax.trans hhigh⟩

theorem Window.offset_le_stop (w : Window) : w.offset ≤ w.stop := Nat.le_add_right _ _

theorem Window.Skips.stop_eq {w w' : Window} {enc : List UInt8} (h : w.Skips enc w') :
    w'.stop = w.stop := by
  obtain ⟨hbytes, hoffset⟩ := h
  rw [stop, stop, hoffset, hbytes, List.length_append, Nat.add_assoc]

namespace Decoder

variable {α β : Type} {other : ScanError → Prop} {low : ℕ}

/-- From a window that begins at `low` or later, `d` gives up only with an error inside the window
and not before `low`, or with one that `other` admits. If it succeeds, it is further on in the same
window. -/
structure Confined (other : ScanError → Prop) (low : ℕ) (d : Decoder α) : Prop where
  forward : ∀ ⦃w w' : Window⦄ ⦃a : α⦄, d.run w = .ok a w' → w.offset ≤ w'.offset ∧ w'.stop = w.stop
  inside : ∀ ⦃w w' : Window⦄ ⦃e : ScanError⦄, low ≤ w.offset → d.run w = .error e w' →
    other e ∨ e.IsWithin low w.stop

/-- A run of two decoders fails with the first one or, after that has succeeded, with the second. -/
theorem run_bind_eq_error {d : Decoder α} {f : α → Decoder β} {w w'' : Window} {e : ScanError} :
    (d >>= f).run w = .error e w'' ↔
      d.run w = .error e w'' ∨ ∃ a w', d.run w = .ok a w' ∧ (f a).run w' = .error e w'' := by
  simp only [EStateM.run_bind]
  cases d.run w with
  | ok a w' => simp
  | error e' w' => simp

/-! ## Steps -/

theorem forward_of_reads {d : Decoder α} {G : Grammar α} (h : Reads d G) {w w' : Window} {a : α}
    (hrun : d.run w = .ok a w') : w.offset ≤ w'.offset ∧ w'.stop = w.stop := by
  obtain ⟨enc, -, hskips⟩ := h.run_eq_ok.mp hrun
  have hoffset : w'.offset = w.offset + enc.length := hskips.2
  exact ⟨by omega, hskips.stop_eq⟩

theorem confined_pure (a : α) : Confined other low (pure a : Decoder α) where
  forward := by
    intro w w' b h
    obtain ⟨-, rfl⟩ := run_pure_eq_ok.mp h
    exact ⟨le_rfl, rfl⟩
  inside := by
    intro w w' e _ h
    cases h

theorem Confined.bind {d : Decoder α} {f : α → Decoder β} (hd : Confined other low d)
    (hf : ∀ a, Confined other low (f a)) : Confined other low (d >>= f) where
  forward := by
    intro w w'' b h
    obtain ⟨a, w', hrun, h⟩ := run_bind_eq_ok.mp h
    obtain ⟨hoffset, hstop⟩ := hd.forward hrun
    obtain ⟨hoffset', hstop'⟩ := (hf a).forward h
    exact ⟨hoffset.trans hoffset', hstop'.trans hstop⟩
  inside := by
    intro w w'' e hlow h
    rcases run_bind_eq_error.mp h with h | ⟨a, w', hrun, h⟩
    · exact hd.inside hlow h
    · -- The second decoder fails in what the first one has left of the same window.
      obtain ⟨hoffset, hstop⟩ := hd.forward hrun
      rw [← hstop]
      exact (hf a).inside (hlow.trans hoffset) h

/-- An error that `other` admits may be thrown anywhere. -/
theorem confined_throw {e : ScanError} (he : other e) :
    Confined other low (throw e : Decoder α) where
  forward := by
    intro w w' a h
    cases h
  inside := by
    intro w w' e' _ h
    cases h
    exact .inl he

/-- The offset to blame has been taken before, so it lies at most where the decoder stands. -/
theorem confined_failAt (start : ℕ) (fault : Fault) :
    Confined other start (failAt start fault : Decoder α) where
  forward := by
    intro w w' a h
    cases h
  inside := by
    intro w w' e hlow h
    cases h
    exact .inr ⟨start, fault, rfl, le_rfl, hlow.trans w.offset_le_stop⟩

/-- From a position on, that position may be blamed. -/
theorem confined_position_bind {f : ℕ → Decoder α} (h : ∀ start, Confined other start (f start)) :
    Confined other low (position >>= f) where
  forward := by
    intro w w' a hrun
    exact (h w.offset).forward hrun
  inside := by
    intro w w' e hlow hrun
    have herror := (h w.offset).inside le_rfl hrun
    exact herror.imp_right fun he ↦ he.mono hlow le_rfl

/-- What only moves forward, and blames nothing but the place where it starts, is confined. -/
theorem confined_of_blames_start {d : Decoder α}
    (hforward : ∀ ⦃w w' : Window⦄ ⦃a : α⦄, d.run w = .ok a w' →
      w.offset ≤ w'.offset ∧ w'.stop = w.stop)
    (hblames : ∀ ⦃w w' : Window⦄ ⦃e : ScanError⦄, d.run w = .error e w' →
      ∃ fault, e = .malformed w.offset fault) : Confined other low d where
  forward := hforward
  inside := by
    intro w w' e hlow h
    obtain ⟨fault, rfl⟩ := hblames h
    exact .inr ⟨w.offset, fault, rfl, hlow, w.offset_le_stop⟩

theorem reads_byte : Reads byte fun b enc ↦ enc = [b] := by
  intro w w' b
  rw [byte_eq_ok]
  constructor
  · rintro ⟨rest, hbytes, rfl⟩
    exact ⟨[b], rfl, hbytes, rfl⟩
  · rintro ⟨_, rfl, hbytes, hoffset⟩
    refine ⟨w'.bytes, hbytes, ?_⟩
    rw [← show w'.offset = w.offset + 1 from hoffset]

theorem confined_byte : Confined other low byte := by
  refine confined_of_blames_start (fun _ _ _ h ↦ forward_of_reads reads_byte h) ?_
  intro w w' e h
  simp only [EStateM.run, byte, failHere] at h
  split at h
  · cases h
    exact ⟨_, rfl⟩
  · cases h

theorem confined_peek : Confined other low peek := by
  apply confined_of_blames_start
  · intro w w' b h
    simp only [EStateM.run, peek, failHere] at h
    split at h
    · cases h
    · cases h
      exact ⟨le_rfl, rfl⟩
  · intro w w' e h
    simp only [EStateM.run, peek, failHere] at h
    split at h
    · cases h
      exact ⟨_, rfl⟩
    · cases h

theorem confined_bytes (count : ℕ) : Confined other low (bytes count) := by
  refine confined_of_blames_start (fun _ _ _ h ↦ forward_of_reads (reads_bytes count) h) ?_
  intro w w' e h
  simp only [EStateM.run, bytes, failHere] at h
  split at h
  · cases h
    exact ⟨_, rfl⟩
  · cases h

theorem confined_window (size : ℕ) : Confined other low (window size) := by
  apply confined_of_blames_start
  · intro w w' part h
    obtain ⟨-, -, hskips⟩ := window_eq_ok.mp h
    have hoffset : w'.offset = w.offset + part.bytes.length := hskips.2
    exact ⟨by omega, hskips.stop_eq⟩
  · intro w w' e h
    simp only [EStateM.run, window, failHere] at h
    split at h
    · cases h
      exact ⟨_, rfl⟩
    · cases h

theorem confined_expectEnd (place : String) : Confined other low (expectEnd place) := by
  apply confined_of_blames_start
  · intro w w' u h
    simp only [EStateM.run, expectEnd, failHere] at h
    split at h
    · cases h
      exact ⟨le_rfl, rfl⟩
    · cases h
  · intro w w' e h
    simp only [EStateM.run, expectEnd, failHere] at h
    split at h
    · cases h
    · cases h
      exact ⟨_, rfl⟩

/-! ## Integers, names and vectors -/

theorem confined_sevenBitGroups (start left : ℕ) :
    Confined other start (sevenBitGroups start left) := by
  induction left with
  | zero => exact confined_failAt start _
  | succ left ih =>
    refine confined_byte.bind fun b ↦ ?_
    split
    · exact confined_pure _
    · exact ih.bind fun _ ↦ confined_pure _

theorem confined_u32 : Confined other low u32 := by
  refine confined_position_bind fun start ↦ (confined_sevenBitGroups start 5).bind fun groups ↦ ?_
  split
  · exact confined_pure _
  · exact confined_failAt start _

theorem confined_s33 : Confined other low s33 := by
  refine confined_position_bind fun start ↦ (confined_sevenBitGroups start 5).bind fun groups ↦ ?_
  split
  · exact confined_pure _
  · exact confined_failAt start _

theorem confined_name : Confined other low name := by
  refine confined_u32.bind fun length ↦ confined_position_bind fun start ↦ ?_
  refine (confined_bytes length).bind fun content ↦ ?_
  split
  · exact confined_pure _
  · exact confined_failAt start _

theorem Confined.repeated {item : Decoder α} (h : Confined other low item) (count : ℕ) :
    Confined other low (repeated item count) := by
  induction count with
  | zero => exact confined_pure _
  | succ count ih => exact h.bind fun _ ↦ ih.bind fun _ ↦ confined_pure _

theorem Confined.vector {item : Decoder α} (h : Confined other low item) :
    Confined other low (vector item) :=
  confined_u32.bind fun count ↦ h.repeated count

theorem Confined.wholeVector {item : Decoder α} (h : Confined other low item) (place : String) :
    Confined other low (wholeVector item place) :=
  h.vector.bind fun _ ↦ (confined_expectEnd place).bind fun _ ↦ confined_pure _

/-- What a decoder says of a window of its own stays in that window. -/
theorem Confined.isWithin_of_value {d : Decoder α} {w : Window} {e : ScanError}
    (h : Confined other w.offset d) (hvalue : d.value w = .error e) :
    other e ∨ e.IsWithin w.offset w.stop := by
  rw [value] at hvalue
  split at hvalue
  · cases hvalue
  · next w' hrun =>
    cases hvalue
    exact h.inside le_rfl hrun

/-! ## Types -/

theorem confined_heapType : Confined other low HeapType.decode := by
  refine confined_peek.bind fun b ↦ ?_
  split
  · exact confined_byte.bind fun _ ↦ confined_pure _
  · refine confined_position_bind fun start ↦ confined_s33.bind fun index ↦ ?_
    split
    · exact confined_failAt start _
    · exact confined_pure _

theorem confined_valueType : Confined other low ValueType.decode := by
  refine confined_position_bind fun start ↦ confined_byte.bind fun b ↦ ?_
  split
  · exact confined_pure _
  · exact confined_pure _
  · split
    · exact confined_heapType.bind fun _ ↦ confined_pure _
    · exact confined_failAt start _

theorem confined_storageType : Confined other low StorageType.decode := by
  refine confined_peek.bind fun b ↦ ?_
  split
  · exact confined_byte.bind fun _ ↦ confined_pure _
  · exact confined_valueType.bind fun _ ↦ confined_pure _

theorem confined_fieldType : Confined other low FieldType.decode := by
  refine confined_storageType.bind fun storage ↦ confined_position_bind fun start ↦ ?_
  refine confined_byte.bind fun b ↦ ?_
  split
  · exact confined_pure _
  · split
    · exact confined_pure _
    · exact confined_failAt start _

theorem confined_compositeType : Confined other low CompositeType.decode := by
  refine confined_position_bind fun start ↦ confined_byte.bind fun form ↦ ?_
  split
  · refine confined_valueType.vector.bind fun _ ↦ ?_
    exact confined_valueType.vector.bind fun _ ↦ confined_pure _
  · split
    · exact confined_fieldType.vector.bind fun _ ↦ confined_pure _
    · split
      · exact confined_fieldType.bind fun _ ↦ confined_pure _
      · exact confined_failAt start _

theorem confined_subType : Confined other low SubType.decode := by
  refine confined_peek.bind fun b ↦ ?_
  split
  · refine confined_byte.bind fun _ ↦ confined_u32.vector.bind fun supertypes ↦ ?_
    exact confined_compositeType.bind fun _ ↦ confined_pure _
  · exact confined_compositeType.bind fun _ ↦ confined_pure _

theorem confined_recGroup : Confined other low RecGroup.decode := by
  refine confined_peek.bind fun b ↦ ?_
  split
  · exact confined_byte.bind fun _ ↦ confined_subType.vector.bind fun _ ↦ confined_pure _
  · exact confined_subType.bind fun _ ↦ confined_pure _

/-! ## Imports and sections -/

/-- An import entry can end in one error that has no offset. -/
theorem confined_importEntry : Confined ScanError.IsForeign low ImportEntry.decode := by
  refine confined_name.bind fun module ↦ confined_name.bind fun name ↦ ?_
  refine confined_position_bind fun start ↦ confined_byte.bind fun b ↦ ?_
  split
  · exact confined_failAt start _
  · exact confined_u32.bind fun _ ↦ confined_pure _
  · exact confined_throw ⟨module, name, _, rfl⟩

theorem confined_section : Confined other low Section.decode := by
  refine confined_position_bind fun offset ↦ confined_byte.bind fun id ↦ ?_
  refine confined_u32.bind fun size ↦ ?_
  exact (confined_window size).bind fun _ ↦ confined_pure _

end Decoder

/-! ## The walk over the sections -/

/-- The content of a section lies between where the section begins and where reading goes on. -/
theorem payload_between {w w' : Window} {s : Section} (h : Section.decode.run w = .ok s w') :
    s.offset = w.offset ∧ s.offset ≤ s.payload.offset ∧ s.payload.stop = w'.offset := by
  obtain ⟨hoffset, hstop, enc, henc, hskips⟩ := section_eq_ok.mp h
  have hlength : s.payload.bytes.length ≤ enc.length := by
    obtain ⟨hsize⟩ := henc
    rw [List.length_cons, List.length_append]
    omega
  have hend : s.payload.offset + s.payload.bytes.length = w.offset + enc.length :=
    hstop.trans hskips.2
  exact ⟨hoffset, by omega, hstop⟩

/-- Why a section is not taken in: its name, its types or its imports cannot be read, its kind is not
known, or it comes too late. -/
inductive Declarations.Rejects (d : Declarations) (s : Section) : ScanError → Prop
  | name {e : ScanError} (hid : s.id = 0) (h : Decoder.name.value s.payload = .error e) :
      Rejects d s e
  | unknown (hid : s.id ≠ 0) (hrank : sectionRank? s.id = none) :
      Rejects d s (.malformed s.offset (.unknownSection s.id))
  | misplaced {rank : ℕ} (hid : s.id ≠ 0) (hrank : sectionRank? s.id = some rank)
      (hle : rank ≤ d.rank) : Rejects d s (.malformed s.offset (.misplacedSection s.id))
  | types {e : ScanError} (hid : s.id = 1) (hrank : d.rank < 1)
      (h : (wholeVector RecGroup.decode "type section").value s.payload = .error e) :
      Rejects d s e
  | imports {e : ScanError} (hid : s.id = 2) (hrank : d.rank < 2)
      (h : (wholeVector ImportEntry.decode "import section").value s.payload = .error e) :
      Rejects d s e

theorem rejects_of_add_eq_error {d : Declarations} {s : Section} {e : ScanError}
    (h : d.add s = .error e) : d.Rejects s e := by
  unfold Declarations.add at h
  split at h
  · next hid =>
    rcases bind_eq_error.mp h with h | ⟨_, -, h⟩
    · exact .name hid h
    · cases h
  · next hid =>
    split at h
    · next hrank =>
      cases h
      exact .unknown hid hrank
    · next rank hrank =>
      split at h
      · next hle =>
        cases h
        exact .misplaced hid hrank hle
      · next hle =>
        have hlt : d.rank < rank := Nat.lt_of_not_le hle
        split at h
        · next h1 =>
          obtain rfl : 1 = rank := Option.some.inj (by rw [← hrank, h1]; rfl)
          rcases bind_eq_error.mp h with h | ⟨_, -, h⟩
          · exact .types h1 hlt h
          · cases h
        · split at h
          · next h2 =>
            obtain rfl : 2 = rank := Option.some.inj (by rw [← hrank, h2]; rfl)
            rcases bind_eq_error.mp h with h | ⟨_, -, h⟩
            · exact .imports h2 hlt h
            · cases h
          · cases h

/-- A section is either taken in or rejected, and each way to reject it has its error. -/
theorem add_eq_error {d : Declarations} {s : Section} {e : ScanError} :
    d.add s = .error e ↔ d.Rejects s e := by
  refine ⟨rejects_of_add_eq_error, fun h ↦ ?_⟩
  unfold Declarations.add
  cases h with
  | name hid h =>
    rw [if_pos hid, h]
    rfl
  | unknown hid hrank => rw [if_neg hid, hrank]
  | misplaced hid hrank hle =>
    rw [if_neg hid, hrank]
    exact if_pos hle
  | types hid hrank h =>
    have hplace : ¬ 1 ≤ d.rank := Nat.not_le.mpr hrank
    simp [hid, sectionRank?, hplace, h, bind, Except.bind]
  | imports hid hrank h =>
    have hplace : ¬ 2 ≤ d.rank := Nat.not_le.mpr hrank
    simp [hid, sectionRank?, hplace, h, bind, Except.bind]

/-- A section that is rejected is wrong somewhere between the beginning of its frame and the end of
its content. -/
theorem Declarations.Rejects.isWithin {d : Declarations} {s : Section} {e : ScanError}
    (h : d.Rejects s e) (hs : s.offset ≤ s.payload.offset) :
    e.IsForeign ∨ e.IsWithin s.offset s.payload.stop := by
  have hframe : s.offset ≤ s.payload.stop := hs.trans s.payload.offset_le_stop
  have hcontent {α : Type} {c : Decoder α} (hc : Confined ScanError.IsForeign s.payload.offset c)
      (hvalue : c.value s.payload = .error e) :
      e.IsForeign ∨ e.IsWithin s.offset s.payload.stop :=
    (hc.isWithin_of_value hvalue).imp_right fun he ↦ he.mono hs le_rfl
  cases h with
  | name _ h => exact hcontent confined_name h
  | unknown => exact .inr ⟨_, _, rfl, le_rfl, hframe⟩
  | misplaced => exact .inr ⟨_, _, rfl, le_rfl, hframe⟩
  | types _ _ h => exact hcontent (confined_recGroup.wholeVector _) h
  | imports _ _ h => exact hcontent (confined_importEntry.wholeVector _) h

/-- **The walk over the sections is confined.** Whatever is wrong with a section, its offset lies
between the first and the last of the sections that were still to be taken in. -/
theorem addAll_eq_error {d : Declarations} {w : Window} {e : ScanError}
    (h : d.addAll w = .error e) : e.IsForeign ∨ e.IsWithin w.offset w.stop := by
  have hforward := (confined_section : Confined ScanError.IsForeign 0 Section.decode).forward
  fun_induction Declarations.addAll d w with
  | case1 d w hnil => cases h
  | case2 d w hnil e' rest hdecode =>
    cases h
    exact confined_section.inside le_rfl hdecode
  | case3 d w hnil s rest hdecode hlen e' hadd =>
    cases h
    obtain ⟨hbegin, hpayload, hend⟩ := payload_between hdecode
    obtain ⟨-, hstop⟩ := hforward hdecode
    have hhigh : s.payload.stop ≤ w.stop := by
      rw [hend, ← hstop]
      exact rest.offset_le_stop
    have herror := (add_eq_error.mp hadd).isWithin hpayload
    exact herror.imp_right fun he ↦ he.mono hbegin.ge hhigh
  | case4 d w hnil s rest hdecode hlen d₁ hadd ih =>
    obtain ⟨hoffset, hstop⟩ := hforward hdecode
    have herror := ih h
    rw [hstop] at herror
    exact herror.imp_right fun he ↦ he.mono hoffset le_rfl

end CallGate.Wasm
