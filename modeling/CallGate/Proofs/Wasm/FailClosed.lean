import CallGate.Proofs.Wasm.CursorAgreement
import CallGate.Proofs.Wasm.ImportScan

/-!
# The scan fails closed

A scan ends in a list of imports or in one of three reasons to reject the module, whatever the bytes
are. For the scan on windows its type says so. `importsOf_failClosed` says it of the scan on a
cursor, which could stop for want of a byte, a type, a member of a group or results, and never does.
What is left for this is the last step, in which imports get their types from an index space.

Why the scan also ends soon is in the same theorem. Each item moves the cursor on, so that a count
is believed only as far as there are bytes for its items.
-/

namespace CallGate.Wasm

open CursorScan Decoder Data

/-! ## Types of imports -/

/-- The slot that a type has in the index space. -/
def TypeRef.slot (t : TypeRef) : TypeSlot := ⟨t.ordinal, t.group, t.place⟩

theorem TypeRef.ref_slot (t : TypeRef) : t.slot.ref = .ok t :=
  dif_pos t.place.isLt

/-- Each slot is the one of a type. -/
theorem typeSlots_eq_map (groups : List RecGroup) :
    typeSlots groups = (indexSpace groups).map TypeRef.slot := by
  have hgroup (g : RecGroup) (ordinal : ℕ) :
      (List.range g.types.length).map (fun place ↦ (⟨ordinal, g, place⟩ : TypeSlot)) =
        (g.refs ordinal).map TypeRef.slot := by
    rw [RecGroup.refs, List.map_map, ← List.map_coe_finRange_eq_range, List.map_map]
    rfl
  rw [typeSlots, indexSpace, List.map_flatMap]
  exact List.flatMap_congr fun p _ ↦ hgroup p.1 p.2

/-- The results are only asked for where there are some. -/
theorem TypeRef.checkCAbi_eq (t : TypeRef) : t.checkCAbi = .ok t.isCAbi := by
  rw [checkCAbi, isCAbi, SubType.isFunction, SubType.function?]
  cases t.group.explicit <;> cases t.subType.isFinal <;>
    cases t.subType.composite <;> rfl

variable {α β : Type} {data : List UInt8}

theorem sameAnswer_lookUp (groups : List RecGroup) (requireCAbi : Bool) (e : ImportEntry) :
    SameAnswer data (e.lookUp (typeSlots groups) requireCAbi)
      (e.resolve (indexSpace groups) requireCAbi) := by
  rw [ImportEntry.lookUp, ImportEntry.resolve, typeSlots_eq_map, List.length_map, List.getElem?_map]
  cases hslot : (indexSpace groups)[e.typeIndex]? with
  | none =>
    rw [if_pos (List.getElem?_eq_none_iff.mp hslot)]
    exact .error (e := .unresolvedType e.module e.name e.typeIndex)
  | some type =>
    have hlt := (List.getElem?_eq_some_iff.mp hslot).1
    rw [if_neg (Nat.not_le_of_lt hlt), Option.map_some]
    simp only [TypeRef.ref_slot, TypeRef.checkCAbi_eq, bind, Except.bind, pure, Except.pure]
    change SameAnswer data _
      (if !type.subType.isFunction then _ else if requireCAbi && !type.isCAbi then _ else _)
    refine .ite (.error (e := .malformed 0 (.notFunctionType e.module e.name e.typeIndex))) ?_
    cases requireCAbi with
    | false => exact .ok
    | true =>
      cases type.isCAbi with
      | false => exact .error (e := .malformed 0 (.notCAbi e.module e.name))
      | true => exact .ok

theorem SameAnswer.mapM {f : α → Except Stop β} {g : α → Except ScanError β}
    (hfg : ∀ a, SameAnswer data (f a) (g a)) (as : List α) :
    SameAnswer data (as.mapM f) (as.mapM g) := by
  induction as with
  | nil => exact .ok
  | cons a as ih =>
    rw [List.mapM_cons, List.mapM_cons]
    exact (hfg a).bind fun b ↦ ih.bind fun bs ↦ .ok

theorem sameAnswer_importsOf (bytes : List UInt8) (requireCAbi : Bool) :
    SameAnswer bytes (importsOfCursor bytes requireCAbi) (importsOf bytes requireCAbi) :=
  (sameAnswer_ofBytes bytes).bind fun d ↦ .mapM (sameAnswer_lookUp d.groups requireCAbi) d.imports

/-! ## Moving on -/

/-- A step that starts inside the bytes and succeeds has moved on by at least a byte, and not beyond
the stop. -/
def Advances (s : CursorScan α) : Prop :=
  ∀ ⦃data : List UInt8⦄ ⦃c c' : ByteCursor⦄ ⦃w : Window⦄ ⦃a : α⦄, Shows data c w → s c = .ok a c' →
    c.pos + 1 ≤ c'.pos ∧ c'.pos ≤ c'.stop ∧ c'.stop = c.stop

/-- An item, whether it is read with a cursor or in a window, takes at least a byte. -/
structure TakesByte (s : CursorScan α) (d : Decoder β) : Prop where
  consumes : Consumes 1 d
  advances : Advances s

/-- What a decoder takes from the window, the cursor has moved over. -/
theorem TakesByte.of_mirrors {R : α → β → Prop} {s : CursorScan α} {d : Decoder β} {G : Grammar β}
    (hd : Consumes 1 d) (hreads : Reads d G) (hs : ∀ data, Mirrors data R s d) :
    TakesByte s d where
  consumes := hd
  advances := by
    intro data c c' w a hc h
    have hend := hs data hc
    rw [h] at hend
    generalize hrun : d w = y at hend
    cases hend with
    | ok _ hc' =>
      obtain ⟨enc, -, hbytes, hoffset⟩ := hreads.run_eq_ok.mp hrun
      have hused := hd hrun
      rw [hbytes, List.length_append] at hused
      rw [hc'.pos_eq, hc'.stop_eq, hc.pos_eq, hc.stop_eq, Window.stop, Window.stop, hbytes,
        List.length_append]
      omega

/-! ## Counts -/

/-- A type or an import section that announces more than it can hold is in no module. -/
theorem importsOf_eq_error_of_overcounts {body : List UInt8} {frames : List Frame} {f : Frame}
    (hframes : Grammar.items Frame.Encoding frames body) (hf : f ∈ frames)
    (hid : f.id = 1 ∨ f.id = 2) (hcount : Overcounts ⟨0, f.payload⟩) (requireCAbi : Bool) :
    ∃ e, importsOf (magic ++ (version ++ body)) requireCAbi = .error e := by
  cases hscan : importsOf (magic ++ (version ++ body)) requireCAbi with
  | error e => exact ⟨e, rfl⟩
  | ok imports =>
    obtain ⟨frames', groups, entries, hmodule, -⟩ := importsOf_eq_ok.mp hscan
    obtain ⟨body', hbody, hframes'⟩ := hmodule.framed
    obtain rfl : body = body' := List.append_cancel_left (List.append_cancel_left hbody)
    obtain rfl := reads_frame.items_unique Frame.visible_encoding hframes hframes'
    -- Its content is a whole vector, and on the other hand it cannot be read as one.
    have hcontent : f.payload ++ [] = f.payload := List.append_nil _
    rcases hid with hid | hid
    · obtain ⟨e, w', hvector⟩ := consumes_recGroup.vector_eq_error hcount
      have hrun := reads_typeSection.run (hmodule.types.1 f hf hid) 0 []
      rw [hcontent] at hrun
      cases hrun.symm.trans hvector
    · obtain ⟨e, w', hvector⟩ := consumes_importEntry.vector_eq_error hcount
      have hrun := reads_importSection.run (hmodule.imports.1 f hf hid) 0 []
      rw [hcontent] at hrun
      cases hrun.symm.trans hvector

/-! ## The whole scan -/

/-- **The scan is total and fails closed.** Read with a cursor, any bytes give what they give read
in windows: the imports, or an error with one of three reasons. No byte, no type and no member of a
group is looked for where there is none, and no results of a type that has none. (Positions that do
not fit a word come with more bytes than there can be.) Whatever is repeated takes a byte each time,
so that a count which the bytes behind it cannot meet is an error, and the same one however large it
is. If it is the count of a type or an import section, then the scan as a whole ends in an error. -/
theorem importsOf_failClosed :
    (∀ (bytes : List UInt8) (requireCAbi : Bool),
      importsOfCursor bytes requireCAbi = (importsOf bytes requireCAbi).mapError .ofScanError ∨
        0x8000000000000000 ≤ bytes.length ∧
          importsOfCursor bytes requireCAbi = .error (.noByte .tooLarge)) ∧
    (TakesByte (ofCursor ByteCursor.u32) Decoder.u32 ∧
      TakesByte (ofCursor ByteCursor.name) Decoder.name ∧
      TakesByte ValueType.read ValueType.decode ∧
      TakesByte FieldType.read FieldType.decode ∧
      TakesByte CompositeType.read CompositeType.decode ∧
      TakesByte SubType.read SubType.decode ∧
      TakesByte RecGroup.read RecGroup.decode ∧
      TakesByte ImportEntry.read ImportEntry.decode) ∧
    (∀ (α : Type) (item : Decoder α) (w : Window), Consumes 1 item →
      (∃ e w', ∀ count, w.bytes.length < count → Decoder.repeated item count w = .error e w') ∧
        (Overcounts w → ∃ e w', Decoder.vector item w = .error e w')) ∧
    ∀ (body : List UInt8) (frames : List Frame) (f : Frame) (requireCAbi : Bool),
      Grammar.items Frame.Encoding frames body → f ∈ frames → f.id = 1 ∨ f.id = 2 →
        Overcounts ⟨0, f.payload⟩ →
          ∃ e, importsOf (magic ++ (version ++ body)) requireCAbi = .error e := by
  refine ⟨fun bytes requireCAbi ↦ ?_, ⟨?_, ?_, ?_, ?_, ?_, ?_, ?_, ?_⟩, ?_, ?_⟩
  · have hanswer := sameAnswer_importsOf bytes requireCAbi
    generalize importsOfCursor bytes requireCAbi = x, importsOf bytes requireCAbi = y at hanswer
    cases hanswer with
    | ok => exact .inl rfl
    | error => exact .inl rfl
    | tooLong hlong => exact .inr ⟨hlong, rfl⟩
  · exact .of_mirrors consumes_u32 reads_u32 fun _ ↦ mirrors_u32
  · exact .of_mirrors consumes_name reads_name fun _ ↦ mirrors_name
  · exact .of_mirrors consumes_valueType reads_valueType fun _ ↦ mirrors_valueType
  · exact .of_mirrors consumes_fieldType reads_fieldType fun _ ↦ mirrors_fieldType
  · exact .of_mirrors consumes_compositeType reads_compositeType fun _ ↦ mirrors_compositeType
  · exact .of_mirrors consumes_subType reads_subType fun _ ↦ mirrors_subType
  · exact .of_mirrors consumes_recGroup reads_recGroup fun _ ↦ mirrors_recGroup
  · exact .of_mirrors consumes_importEntry reads_importEntry fun _ ↦ mirrors_importEntry
  · exact fun α item w hitem ↦ ⟨hitem.repeated_eq_error, hitem.vector_eq_error⟩
  · exact fun body frames f requireCAbi hframes hf hid hcount ↦
      importsOf_eq_error_of_overcounts hframes hf hid hcount requireCAbi

/-- A type section of six bytes that announces as many groups as a count can say. -/
theorem importsOf_failClosed_largest_count :
    let content : List UInt8 := [0xFF, 0xFF, 0xFF, 0xFF, 0x0F, 0x60]
    let bytes := magic ++ (version ++ 0x01 :: 0x06 :: content)
    (∃ e w', Decoder.vector RecGroup.decode ⟨0, content⟩ = .error e w') ∧
      (∃ e, importsOf bytes = .error e) ∧
      importsOfCursor bytes false = (importsOf bytes false).mapError .ofScanError := by
  intro content bytes
  have hcount : Overcounts ⟨0, content⟩ := ⟨0xFFFFFFFF, ⟨5, [0x60]⟩, rfl, by decide⟩
  have hsize : Grammar.u32 content.length [0x06] :=
    ⟨⟨[], 0x06, rfl, by decide, nofun, by decide⟩, rfl, by decide⟩
  have hframes : Grammar.items Frame.Encoding [⟨1, content⟩] (0x01 :: 0x06 :: content) :=
    Grammar.items_cons.mpr ⟨_, [], .mk hsize, Grammar.items_nil.mpr rfl, (List.append_nil _).symm⟩
  have hshort : ¬ 0x8000000000000000 ≤ bytes.length := by decide
  obtain ⟨hagree, -, hvector, hscan⟩ := importsOf_failClosed
  exact ⟨(hvector _ _ _ consumes_recGroup).2 hcount,
    hscan _ _ _ false hframes List.mem_cons_self (.inl rfl) hcount,
    (hagree bytes false).resolve_right fun h ↦ hshort h.1⟩

end CallGate.Wasm
