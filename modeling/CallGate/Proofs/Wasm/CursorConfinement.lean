import CallGate.Proofs.Wasm.Confinement
import CallGate.Proofs.Wasm.CursorReading
import CallGate.Proofs.Wasm.Relocation

/-!
# A cursor is confined to its section

A section is read with a cursor on the bytes of the whole module, and only the stop of the cursor
says where the section ends. The bytes around the section are within reach all the time, and none of
them makes a difference. `KeepsInside` is what this means for a step. The cursor comes to stand
between its position and its stop; or the step complains about a place between them; and either way
two cursors with the same bytes in front of them come to the same, however far apart they are and
whatever else there is (`seenFrom`).

In a window there is nothing around that could make a difference, except for the absolute offset.
So a step that does what a decoder does is confined if the decoder blames only places in its window
(`Confined`) and is the same one everywhere (`Relocates`).

A run of bytes and a part come with a size, which may be negative and then moves the cursor back.
Exactly the other sizes keep inside (`keepsInside_bytes_iff`, `keepsInside_partContent_iff`).
-/

namespace CallGate.Wasm

open CursorScan Decoder

/-! ## Cursors on a section -/

namespace ByteCursor

/-- A cursor that stands in front of its stop or at it, with nothing but bytes in between. -/
structure HasWindow (c : ByteCursor) : Prop extends InBytes c where
  pos_le : c.pos ≤ c.stop

/-- The bytes that a cursor has in front of it, up to its stop. -/
def content (c : ByteCursor) : List UInt8 := slice c.data c.pos c.stop

end ByteCursor

namespace Shows

variable {data : List UInt8} {c : ByteCursor} {w : Window}

theorem content_eq (h : Shows data c w) : c.content = w.bytes := by
  have hstop : c.stop = c.pos + w.bytes.length := by
    rw [h.stop_eq, h.pos_eq, Window.stop, Int.natCast_add]
  rw [ByteCursor.content, hstop, h.slice_eq le_rfl, List.take_length]

theorem hasWindow (h : Shows data c w) (hlength : data.length < 0x8000000000000000) :
    c.HasWindow := by
  obtain ⟨rfl, hpos, hstop, before, after, hbefore, hall⟩ := h
  have hsum := congrArg List.length hall
  rw [List.length_append, List.length_append] at hsum
  rw [Window.stop] at hstop
  exact ⟨⟨by omega, by omega, hlength⟩, by omega⟩

end Shows

theorem ByteCursor.HasWindow.shows {c : ByteCursor} (hc : c.HasWindow) :
    Shows c.data c ⟨c.pos.toNat, c.content⟩ := by
  have hshows := hc.shows_window hc.pos_le
  rwa [show c.window = ⟨c.pos.toNat, c.content⟩ by rw [hshows.content_eq]; rfl] at hshows

/-! ## Staying inside -/

/-- An error as it looks from an origin. -/
def Stop.seenFrom (origin : ℤ) : Stop → Stop
  | malformed offset fault => malformed (offset - origin) fault
  | e => e

/-- No error will do. -/
abbrev ScanError.never (_ : ScanError) : Prop := False

namespace CursorScan

variable {α β : Type}

/-- What a step comes to as it looks from an origin: a value or an error, and how far it got. -/
def seenFrom (origin : ℤ) : EStateM.Result Stop ByteCursor α → Except Stop α × ℤ
  | .ok a c => (.ok a, c.pos - origin)
  | .error e c => (.error (e.seenFrom origin), c.pos - origin)

/-- A step uses nothing but the bytes between position and stop, as it goes on, as it fails, unless
with an error that `other` admits, and as it decides what to do. -/
structure KeepsInside (other : ScanError → Prop) (s : CursorScan α) : Prop where
  stays : ∀ ⦃c c' : ByteCursor⦄ ⦃a : α⦄, c.HasWindow → s c = .ok a c' →
    c'.data = c.data ∧ c'.stop = c.stop ∧ c.pos ≤ c'.pos ∧ c'.pos ≤ c.stop
  blames : ∀ ⦃c c' : ByteCursor⦄ ⦃e : Stop⦄, c.HasWindow → s c = .error e c' →
    (∃ e', other e' ∧ e = .ofScanError e') ∨
      ∃ offset fault, e = .malformed offset fault ∧ c.pos ≤ offset ∧ offset ≤ c.stop
  alike : ∀ ⦃c d : ByteCursor⦄, c.HasWindow → d.HasWindow → c.content = d.content →
    seenFrom c.pos (s c) = seenFrom d.pos (s d)

end CursorScan

/-- A decoder uses nothing but the bytes of its window: it stays there, blames what is there, and is
the same one in every place. -/
structure Decoder.KeepsInside {α : Type} (other : ScanError → Prop) (d : Decoder α) : Prop where
  confined : ∀ low, Confined other low d
  relocates : ∀ low low', Relocates low low' d d

/-- An item keeps inside whether it is read with a cursor or in a window. -/
structure KeepInside {α β : Type} (other : ScanError → Prop) (s : CursorScan α) (d : Decoder β) :
    Prop where
  cursor : s.KeepsInside other
  window : d.KeepsInside other

section

variable {α β : Type} {other : ScanError → Prop} {s : CursorScan α} {d : Decoder β}

namespace SameEnd

variable {data : List UInt8} {value : β → α} {x : EStateM.Result Stop ByteCursor α} {w : Window}

theorem seenFrom_of_ok {b : β} (h : SameEnd data (fun a b ↦ a = value b) x (.ok b w))
    (hlength : data.length < 0x8000000000000000) (origin : ℤ) :
    seenFrom origin x = (.ok (value b), w.offset - origin) := by
  cases h with
  | ok hab hc => rw [seenFrom, hab, hc.pos_eq]
  | tooLong hlong => exact absurd hlength (Nat.not_lt.mpr hlong)

theorem seenFrom_of_error {R : α → β → Prop} {e : ScanError} (h : SameEnd data R x (.error e w))
    (hlength : data.length < 0x8000000000000000) (origin : ℤ) :
    seenFrom origin x = (.error ((Stop.ofScanError e).seenFrom origin), w.offset - origin) := by
  cases h with
  | error hc => rw [seenFrom, hc.pos_eq]
  | tooLong hlong => exact absurd hlength (Nat.not_lt.mpr hlong)

end SameEnd

/-! ### From windows to cursors -/

variable {R : α → β → Prop} {c c' : ByteCursor}

theorem stays_of_mirrors (hc : c.HasWindow) (hs : Mirrors c.data R s d)
    (hd : ∀ low, Confined other low d) {a : α} (h : s c = .ok a c') :
    c'.data = c.data ∧ c'.stop = c.stop ∧ c.pos ≤ c'.pos ∧ c'.pos ≤ c.stop := by
  have hshows := hc.shows
  have hend := hs hshows
  rw [h] at hend
  generalize hrun : d ⟨c.pos.toNat, c.content⟩ = y at hend
  cases hend with
  | @ok _ b _ w _ hshows' =>
    obtain ⟨hforward, hstop⟩ := (hd 0).forward hrun
    refine ⟨hshows'.data_eq, ?_, ?_, ?_⟩
    · rw [hshows'.stop_eq, hshows.stop_eq, hstop]
    · rw [hshows'.pos_eq, hshows.pos_eq]
      exact Int.ofNat_le.mpr hforward
    · rw [hshows'.pos_eq, hshows.stop_eq, ← hstop]
      exact Int.ofNat_le.mpr w.offset_le_stop

theorem blames_of_mirrors (hc : c.HasWindow) (hs : Mirrors c.data R s d)
    (hd : ∀ low, Confined other low d) {e : Stop} (h : s c = .error e c') :
    (∃ e', other e' ∧ e = .ofScanError e') ∨
      ∃ offset fault, e = .malformed offset fault ∧ c.pos ≤ offset ∧ offset ≤ c.stop := by
  have hshows := hc.shows
  have hend := hs hshows
  rw [h] at hend
  generalize hrun : d ⟨c.pos.toNat, c.content⟩ = y at hend
  cases hend with
  | @error e w _ _ =>
    -- The decoder is confined from where it starts, so it cannot blame what is in front of that.
    rcases (hd c.pos.toNat).inside le_rfl hrun with hother | ⟨offset, fault, rfl, hmin, hmax⟩
    · exact .inl ⟨e, hother, rfl⟩
    · refine .inr ⟨offset, fault, rfl, ?_, ?_⟩
      · rw [hshows.pos_eq]
        exact Int.ofNat_le.mpr hmin
      · rw [hshows.stop_eq]
        exact Int.ofNat_le.mpr hmax
  | tooLong hlong => exact absurd hc.length_lt (Nat.not_lt.mpr hlong)

theorem alike_of_mirrors (hc : c.HasWindow) (hc' : c'.HasWindow) {value : β → α}
    (hs : ∀ data, Mirrors data (fun a b ↦ a = value b) s d)
    (hd : ∀ low low', Relocates low low' d d) (hcontent : c.content = c'.content) :
    seenFrom c.pos (s c) = seenFrom c'.pos (s c') := by
  have hend := hs c.data hc.shows
  have hend' := hs c'.data hc'.shows
  rw [← hcontent] at hend'
  -- Both windows hold the same bytes, and each position is the place to measure from.
  have hsame : SameDistance c.pos.toNat c'.pos.toNat (d ⟨c.pos.toNat, c.content⟩)
      (d ⟨c'.pos.toNat, c.content⟩) := hd _ _ 0 c.content
  have hpos : (c.pos.toNat : ℤ) = c.pos := Int.toNat_of_nonneg hc.pos_nonneg
  have hpos' : (c'.pos.toNat : ℤ) = c'.pos := Int.toNat_of_nonneg hc'.pos_nonneg
  generalize d ⟨c.pos.toNat, c.content⟩ = y, d ⟨c'.pos.toNat, c.content⟩ = y' at hend hend' hsame
  cases hsame with
  | ok a distance rest =>
    rw [hend.seenFrom_of_ok hc.length_lt, hend'.seenFrom_of_ok hc'.length_lt]
    simp only [Prod.mk.injEq, true_and]
    omega
  | malformed blamed fault distance rest =>
    rw [hend.seenFrom_of_error hc.length_lt, hend'.seenFrom_of_error hc'.length_lt]
    simp only [Stop.ofScanError, Stop.seenFrom, Prod.mk.injEq, Except.error.injEq,
      Stop.malformed.injEq, and_true]
    omega
  | foreign module name kind distance rest =>
    rw [hend.seenFrom_of_error hc.length_lt, hend'.seenFrom_of_error hc'.length_lt]
    simp only [Stop.ofScanError, Stop.seenFrom, Prod.mk.injEq, true_and]
    omega

/-- A step is confined if it does what a decoder does that is confined and the same everywhere. -/
theorem keepInside_of_mirrors_value (hconfined : ∀ low, Confined other low d)
    (hrelocates : ∀ low low', Relocates low low' d d) {value : β → α}
    (hs : ∀ data, Mirrors data (fun a b ↦ a = value b) s d) : KeepInside other s d where
  window := ⟨hconfined, hrelocates⟩
  cursor :=
    { stays := fun _ _ _ hc h ↦ stays_of_mirrors hc (hs _) hconfined h
      blames := fun _ _ _ hc h ↦ blames_of_mirrors hc (hs _) hconfined h
      alike := fun _ _ hc hc' h ↦ alike_of_mirrors hc hc' hs hrelocates h }

theorem keepInside_of_mirrors {s : CursorScan α} {d : Decoder α}
    (hconfined : ∀ low, Confined other low d) (hrelocates : ∀ low low', Relocates low low' d d)
    (hs : ∀ data, Mirrors data Eq s d) : KeepInside other s d := by
  have hid (data : List UInt8) : Mirrors data (fun a b ↦ a = id b) s d := hs data
  exact keepInside_of_mirrors_value hconfined hrelocates hid

end

/-! ## Sizes -/

namespace ByteCursor

variable {c c' p : ByteCursor} {count size : ℤ} {other : ScanError → Prop}

/-- A cursor is split in two: a part that stops where the rest begins. -/
structure Splits (c part rest : ByteCursor) : Prop where
  hasWindow : part.HasWindow
  data_eq : part.data = c.data
  pos_eq : part.pos = c.pos
  stop_eq : part.stop = rest.pos
  content_eq : part.content ++ rest.content = c.content

theorem HasWindow.splits (hc : c.HasWindow) {size : ℕ} (h : part size c = .ok p c') :
    c.Splits p c' ∧ p.content.length = size := by
  have hend := mirrors_part size hc.shows
  rw [ofCursor_of_ok h] at hend
  generalize hrun : Decoder.window size ⟨c.pos.toNat, c.content⟩ = y at hend
  cases hend with
  | ok hp hc' =>
    obtain ⟨hoffset, hsize, hbytes, hrest⟩ := window_eq_ok.mp hrun
    refine ⟨⟨hp.hasWindow hc.length_lt, hp.data_eq, ?pos, ?stop, ?content⟩, ?size⟩
    case pos => rw [hp.pos_eq, hoffset, ← hc.shows.pos_eq]
    case stop => rw [hp.stop_eq, hc'.pos_eq, hrest, Window.stop, hoffset]
    case content => rw [hp.content_eq, hc'.content_eq, ← hbytes]
    case size => rw [hp.content_eq, hsize]

theorem bytes_of_le (h : count ≤ c.remaining) :
    bytes count c = .ok (slice c.data c.pos (c.pos + count)) { c with pos := c.pos + count } := by
  rw [bytes_apply, if_neg (Int.not_lt.mpr h)]

theorem part_of_le (h : size ≤ c.remaining) :
    part size c = .ok { c with stop := c.pos + size } { c with pos := c.pos + size } := by
  rw [part_apply, if_neg (Int.not_lt.mpr h)]

/-- A step that moves back from the first byte leaves the section. -/
theorem not_keepsInside_of_back {α : Type} {s : CursorScan α} {a : α}
    (h : s ⟨[], 0, 0⟩ = .ok a c') (hback : c'.pos < 0) : ¬ s.KeepsInside other := by
  intro hkeeps
  have hnil : HasWindow ⟨[], 0, 0⟩ := ⟨⟨le_rfl, le_rfl, by decide⟩, le_rfl⟩
  obtain ⟨-, -, hpos, -⟩ := hkeeps.stays hnil h
  exact absurd hback (Int.not_lt.mpr hpos)

theorem keepInside_bytes (count : ℕ) :
    KeepInside other (ofCursor (bytes count)) (Decoder.bytes count) :=
  keepInside_of_mirrors (fun _ ↦ Decoder.confined_bytes count)
    (fun _ _ ↦ Decoder.relocates_bytes count) fun _ ↦ mirrors_bytes count

theorem keepsInside_bytes_iff : (ofCursor (bytes count)).KeepsInside other ↔ 0 ≤ count := by
  constructor
  · intro hkeeps
    by_contra hneg
    have hrun := ofCursor_of_ok (bytes_of_le (c := ⟨[], 0, 0⟩) (Int.not_le.mp hneg).le)
    exact not_keepsInside_of_back hrun (by simpa using hneg) hkeeps
  · intro h
    obtain ⟨count, rfl⟩ := Int.eq_ofNat_of_zero_le h
    exact (keepInside_bytes count).cursor

/-- What a part is, seen from where it is split off, is the bytes in it. -/
def partContent (size : ℤ) : CursorScan (List UInt8) := do
  return (← ofCursor (part size)).content

theorem keepInside_partContent (size : ℕ) :
    KeepInside other (partContent size) (do return (← Decoder.window size).bytes) :=
  keepInside_of_mirrors
    (fun _ ↦ (Decoder.confined_window size).bind fun _ ↦ Decoder.confined_pure _)
    (fun _ _ ↦ Decoder.relocates_windowBytes size)
    fun _ ↦ (mirrors_part size).map fun _ _ hpart ↦ hpart.content_eq

theorem keepsInside_partContent_iff : (partContent size).KeepsInside other ↔ 0 ≤ size := by
  constructor
  · intro hkeeps
    by_contra hneg
    have hpart := ofCursor_of_ok (part_of_le (c := ⟨[], 0, 0⟩) (Int.not_le.mp hneg).le)
    have hrun : partContent size ⟨[], 0, 0⟩ = _ := Data.bind_of_ok hpart _
    exact not_keepsInside_of_back hrun (by simpa using hneg) hkeeps
  · intro h
    obtain ⟨size, rfl⟩ := Int.eq_ofNat_of_zero_le h
    exact (keepInside_partContent size).cursor

end ByteCursor

/-! ## Sections -/

namespace CursorScan

/-- The slots of all types in a type section. -/
def typeSection : CursorScan (List TypeSlot) := do return typeSlots (← vector RecGroup.read)

open ScanError (never IsForeign) in
/-- **A section is read from its bytes alone.** Every step of a cursor and every item of a section
of types or of imports keeps inside, read with a cursor or in a window. It goes on up to the stop
and no further, complains about a place on the way there, and comes to the same on the same bytes,
whatever is around them. An entry for an import may also end in the error that it is no function,
and does so on the same bytes anywhere. A part has the bytes that are skipped, so that the same
holds again for what is read from it. The sizes of runs and parts are numbers of bytes; with a
negative one a cursor leaves the section. -/
theorem steps_keepInside :
    (KeepInside never (ofCursor ByteCursor.byte) Decoder.byte ∧
      KeepInside never (ofCursor ByteCursor.peek) Decoder.peek ∧
      KeepInside never (ofCursor ByteCursor.u32) Decoder.u32 ∧
      KeepInside never (ofCursor ByteCursor.s33) Decoder.s33 ∧
      KeepInside never (ofCursor ByteCursor.name) Decoder.name ∧
      ∀ place, KeepInside never (ofCursor (ByteCursor.expectEnd place))
        (Decoder.expectEnd place)) ∧
    ((∀ count : ℕ, KeepInside never (ofCursor (ByteCursor.bytes count)) (Decoder.bytes count)) ∧
      (∀ size : ℕ, KeepInside never (ByteCursor.partContent size)
        (do return (← Decoder.window size).bytes)) ∧
      ∀ (size : ℕ) (c part rest : ByteCursor), c.HasWindow →
        ByteCursor.part size c = .ok part rest →
          c.Splits part rest ∧ part.content.length = size) ∧
    (∀ size : ℤ, ((ofCursor (ByteCursor.bytes size)).KeepsInside never ↔ 0 ≤ size) ∧
      ((ByteCursor.partContent size).KeepsInside never ↔ 0 ≤ size)) ∧
    (KeepInside never HeapType.read HeapType.decode ∧
      KeepInside never ValueType.read ValueType.decode ∧
      KeepInside never StorageType.read StorageType.decode ∧
      KeepInside never FieldType.read FieldType.decode ∧
      KeepInside never CompositeType.read CompositeType.decode ∧
      KeepInside never SubType.read SubType.decode ∧
      KeepInside never RecGroup.read RecGroup.decode) ∧
    KeepInside never typeSection (do return typeSlots (← Decoder.vector RecGroup.decode)) ∧
    KeepInside IsForeign ImportEntry.read ImportEntry.decode ∧
    KeepInside IsForeign (vector ImportEntry.read) (Decoder.vector ImportEntry.decode) := by
  refine ⟨⟨?_, ?_, ?_, ?_, ?_, fun place ↦ ?_⟩, ⟨ByteCursor.keepInside_bytes,
    ByteCursor.keepInside_partContent, fun size c part rest hc h ↦ hc.splits h⟩,
    fun size ↦ ⟨ByteCursor.keepsInside_bytes_iff, ByteCursor.keepsInside_partContent_iff⟩,
    ⟨?_, ?_, ?_, ?_, ?_, ?_, ?_⟩, ?_, ?_, ?_⟩
  · exact keepInside_of_mirrors (fun _ ↦ confined_byte) (fun _ _ ↦ relocates_byte)
      fun _ ↦ mirrors_byte
  · exact keepInside_of_mirrors (fun _ ↦ confined_peek) (fun _ _ ↦ relocates_peek)
      fun _ ↦ mirrors_peek
  · exact keepInside_of_mirrors_value (fun _ ↦ confined_u32) (fun _ _ ↦ relocates_u32)
      fun _ ↦ mirrors_u32
  · exact keepInside_of_mirrors (fun _ ↦ confined_s33) (fun _ _ ↦ relocates_s33)
      fun _ ↦ mirrors_s33
  · exact keepInside_of_mirrors (fun _ ↦ confined_name) (fun _ _ ↦ relocates_name)
      fun _ ↦ mirrors_name
  · exact keepInside_of_mirrors (fun _ ↦ confined_expectEnd place)
      (fun _ _ ↦ relocates_expectEnd place) fun _ ↦ mirrors_expectEnd place
  · exact keepInside_of_mirrors (fun _ ↦ confined_heapType) (fun _ _ ↦ relocates_heapType)
      fun _ ↦ mirrors_heapType
  · exact keepInside_of_mirrors (fun _ ↦ confined_valueType) (fun _ _ ↦ relocates_valueType)
      fun _ ↦ mirrors_valueType
  · exact keepInside_of_mirrors (fun _ ↦ confined_storageType) (fun _ _ ↦ relocates_storageType)
      fun _ ↦ mirrors_storageType
  · exact keepInside_of_mirrors (fun _ ↦ confined_fieldType) (fun _ _ ↦ relocates_fieldType)
      fun _ ↦ mirrors_fieldType
  · exact keepInside_of_mirrors (fun _ ↦ confined_compositeType)
      (fun _ _ ↦ relocates_compositeType) fun _ ↦ mirrors_compositeType
  · exact keepInside_of_mirrors (fun _ ↦ confined_subType) (fun _ _ ↦ relocates_subType)
      fun _ ↦ mirrors_subType
  · exact keepInside_of_mirrors (fun _ ↦ confined_recGroup) (fun _ _ ↦ relocates_recGroup)
      fun _ ↦ mirrors_recGroup
  · exact keepInside_of_mirrors (fun _ ↦ confined_recGroup.vector.bind fun _ ↦ confined_pure _)
      (fun _ _ ↦ relocates_recGroup.vector.map typeSlots)
      fun _ ↦ (mirrors_vector mirrors_recGroup).map fun _ _ hgroups ↦ congrArg typeSlots hgroups
  · exact keepInside_of_mirrors (fun _ ↦ confined_importEntry) (fun _ _ ↦ relocates_importEntry)
      fun _ ↦ mirrors_importEntry
  · exact keepInside_of_mirrors (fun _ ↦ confined_importEntry.vector)
      (fun _ _ ↦ relocates_importEntry.vector) fun _ ↦ mirrors_vector mirrors_importEntry

/-- A group that is cut off by the end of a part: the byte it lacks comes next and is not read. -/
theorem steps_keepInside_cut :
    let c : ByteCursor := ⟨[0x4E, 0x60, 0x01, 0x7F, 0x00], 1, 5⟩
    let part : ByteCursor := { c with stop := 4 }
    let rest : ByteCursor := { c with pos := 4 }
    let alone : ByteCursor := ⟨[0x60, 0x01, 0x7F], 0, 3⟩
    (c.HasWindow ∧ ByteCursor.part 3 c = .ok part rest ∧ c.Splits part rest) ∧
      (part.HasWindow ∧ alone.HasWindow ∧ part.content = alone.content) ∧
      RecGroup.read part = .error (.malformed 4 .endOfData) { c with pos := 4, stop := 4 } ∧
      seenFrom 1 (RecGroup.read part) = seenFrom 0 (RecGroup.read alone) := by
  intro c part rest alone
  obtain ⟨-, ⟨-, -, hparts⟩, -, ⟨-, -, -, -, -, -, hgroup⟩, -⟩ := steps_keepInside
  have hc : c.HasWindow := ⟨⟨by decide, by decide, by decide⟩, by decide⟩
  have halone : alone.HasWindow := ⟨⟨by decide, by decide, by decide⟩, by decide⟩
  have hsplit : ByteCursor.part 3 c = .ok part rest := rfl
  have hsplits : c.Splits part rest := (hparts 3 c part rest hc hsplit).1
  have hcontent : part.content = alone.content := by decide
  exact ⟨⟨hc, hsplit, hsplits⟩, ⟨hsplits.hasWindow, halone, hcontent⟩, by rfl,
    hgroup.cursor.alike hsplits.hasWindow halone hcontent⟩

/-- A cursor at its stop is asked for less than no bytes. It comes to stand in front of where it
was, with a byte from behind the stop in hand, which would not be there if the section were all. -/
theorem bytes_behind_stop :
    let c : ByteCursor := ⟨[0x80, 0x00], 0, 0⟩
    let alone : ByteCursor := ⟨[], 0, 0⟩
    (c.HasWindow ∧ alone.HasWindow ∧ c.content = alone.content) ∧
      ByteCursor.bytes (-1) c = .ok [0x80] { c with pos := -1 } ∧
      ByteCursor.bytes (-1) alone = .ok [] { alone with pos := -1 } ∧
      ¬ (ofCursor (ByteCursor.bytes (-1))).KeepsInside ScanError.never := by
  intro c alone
  have hc : c.HasWindow := ⟨⟨by decide, by decide, by decide⟩, by decide⟩
  have halone : alone.HasWindow := ⟨⟨by decide, by decide, by decide⟩, by decide⟩
  refine ⟨⟨hc, halone, by decide⟩, by rfl, by rfl, ?_⟩
  exact mt ByteCursor.keepsInside_bytes_iff.mp (by decide)

end CursorScan

end CallGate.Wasm
