import CallGate.Proofs.Wasm.FaultOffset

/-!
# Which error a scan ends in

A module can be wrong in many places at once, and a scan reports one of them. An import that is no
function stops the walk over the sections where it stands. A type index without a declaration is
looked up when all sections have been read. Everything else is about malformed bytes, and may come
before, between and after.

Whether a scan ends in one of the first two errors is therefore a question of how far the bytes are
well-formed. For an import that is no function, they have to be so up to its kind, and nothing
behind that is looked at (`LeadsToImports`, `BeginsWithForeign`). For a type index, they have to be
a module, and the imports before have to be functions. `importsOf_errors` states both exactly.

## Refusing

`Refuses d e T` says of a decoder and one of its errors what `Reads` says of its values: it ends in
the error exactly where the window begins with bytes of `T`, and stops right behind them. It comes
with the same steps as `Reads`. A decoder all of whose errors are confined never ends in an error
that has no offset.
-/

namespace CallGate.Wasm

open Decoder Data

/-! ## Imports that are no functions -/

/-- The beginning of the import of something that is no function: two names and its kind. -/
inductive ForeignEntry (module name : String) (kind : ImportKind) : List UInt8 → Prop
  | mk {e₁ e₂ : List UInt8} (hmodule : Grammar.name module e₁) (hname : Grammar.name name e₂)
      (hkind : kind ≠ .function) : ForeignEntry module name kind (e₁ ++ (e₂ ++ [kind.byte]))

/-- The content of an import section up to an import that is no function: a count, fewer entries
than that, and the beginning of that import. What follows is left open. -/
inductive BeginsWithForeign (module name : String) (kind : ImportKind) : List UInt8 → Prop
  | mk {n : ℕ} {entries : List ImportEntry} {count written foreign more : List UInt8}
      (hcount : Grammar.u32 n count) (hlt : entries.length < n)
      (hentries : Grammar.items ImportEntry.Encoding entries written)
      (hforeign : ForeignEntry module name kind foreign) :
      BeginsWithForeign module name kind (count ++ (written ++ (foreign ++ more)))

/-! ## Where a decoder refuses -/

namespace Decoder

variable {α β : Type} {d : Decoder α} {e : ScanError} {F G : Grammar α}
  {S T : List UInt8 → Prop}

/-- `d` ends in the error `e` exactly where the window begins with bytes of `T`, and leaves what is
behind them. -/
def Refuses (d : Decoder α) (e : ScanError) (T : List UInt8 → Prop) : Prop :=
  ∀ ⦃w w' : Window⦄, d.run w = .error e w' ↔ ∃ enc, T enc ∧ w.Skips enc w'

theorem Refuses.run_eq_error (h : Refuses d e T) {w w' : Window} :
    d.run w = .error e w' ↔ ∃ enc, T enc ∧ w.Skips enc w' := @h w w'

theorem Refuses.congr (h : Refuses d e S) (hST : ∀ enc, S enc ↔ T enc) : Refuses d e T := by
  intro w w'
  simp only [h.run_eq_error, hST]

/-- What is never refused. -/
theorem refuses_of_ne (h : ∀ w w', d.run w ≠ .error e w') : Refuses d e fun _ ↦ False := by
  intro w w'
  simp only [h w w', false_and, exists_false]

theorem refuses_pure (a : α) : Refuses (pure a) e fun _ ↦ False :=
  refuses_of_ne fun _ _ h ↦ nomatch h

theorem refuses_throw (e' : ScanError) :
    Refuses (throw e' : Decoder α) e fun enc ↦ e' = e ∧ enc = [] := by
  intro w w'
  have hrun : (throw e' : Decoder α).run w = .error e' w := rfl
  rw [hrun, EStateM.Result.error.injEq]
  constructor
  · rintro ⟨he, rfl⟩
    exact ⟨[], ⟨he, rfl⟩, Window.skips_nil.mpr rfl⟩
  · rintro ⟨_, ⟨he, rfl⟩, hskips⟩
    exact ⟨he, Window.skips_nil.mp hskips⟩

/-- Two decoders refuse with the first one or, behind what it reads, with the second. -/
theorem Refuses.bind {f : α → Decoder β} {H : α → List UInt8 → Prop} (h : Refuses d e S)
    (hreads : Reads d F) (hf : ∀ a, Refuses (f a) e (H a)) :
    Refuses (d >>= f) e fun enc ↦
      S enc ∨ ∃ a e₁ e₂, F a e₁ ∧ H a e₂ ∧ enc = e₁ ++ e₂ := by
  intro w w''
  simp only [run_bind_eq_error, h.run_eq_error, hreads.run_eq_ok, (hf _).run_eq_error]
  constructor
  · rintro (⟨enc, henc, hskips⟩ | ⟨a, w', ⟨e₁, h₁, hs₁⟩, e₂, h₂, hs₂⟩)
    · exact ⟨enc, .inl henc, hskips⟩
    · exact ⟨e₁ ++ e₂, .inr ⟨a, e₁, e₂, h₁, h₂, rfl⟩, Window.skips_append.mpr ⟨w', hs₁, hs₂⟩⟩
  · rintro ⟨enc, henc | ⟨a, e₁, e₂, h₁, h₂, rfl⟩, hskips⟩
    · exact .inl ⟨enc, henc, hskips⟩
    · obtain ⟨w', hs₁, hs₂⟩ := Window.skips_append.mp hskips
      exact .inr ⟨a, w', ⟨e₁, h₁, hs₁⟩, e₂, h₂, hs₂⟩

/-- Behind a decoder that never refuses, only the second one does. -/
theorem Reads.bind_refuses {f : α → Decoder β} {H : α → List UInt8 → Prop} (hreads : Reads d F)
    (h : Refuses d e fun _ ↦ False) (hf : ∀ a, Refuses (f a) e (H a)) :
    Refuses (d >>= f) e fun enc ↦ ∃ a e₁ e₂, F a e₁ ∧ H a e₂ ∧ enc = e₁ ++ e₂ :=
  (h.bind hreads hf).congr fun enc ↦ by rw [false_or]

theorem refuses_position_bind {f : ℕ → Decoder α} (h : ∀ offset, Refuses (f offset) e T) :
    Refuses (position >>= f) e T := fun w _ ↦ (h w.offset).run_eq_error

/-- A decoder whose errors all have an offset never refuses. -/
theorem Confined.refuses (h : Confined (fun _ ↦ False) 0 d) (he : e.IsForeign) :
    Refuses d e fun _ ↦ False := by
  refine refuses_of_ne fun w w' hrun ↦ ?_
  obtain ⟨module, name, kind, rfl⟩ := he
  rcases h.inside (Nat.zero_le _) hrun with hfalse | ⟨offset, fault, hwithin, -⟩
  · exact hfalse
  · cases hwithin

/-- Items are refused at the first one that is, if the count goes that far. -/
theorem Refuses.repeated (h : Refuses d e T) (hreads : Reads d G) (count : ℕ) :
    Refuses (repeated d count) e fun enc ↦
      ∃ as e₁ e₂, as.length < count ∧ G.items as e₁ ∧ T e₂ ∧ enc = e₁ ++ e₂ := by
  induction count with
  | zero =>
    refine (refuses_pure []).congr fun enc ↦ ?_
    rw [false_iff]
    rintro ⟨as, e₁, e₂, hlt, -⟩
    exact Nat.not_lt_zero _ hlt
  | succ count ih =>
    have hothers (first : α) := ih.bind (reads_repeated hreads count) fun others ↦
      refuses_pure (e := e) (first :: others)
    refine (h.bind hreads hothers).congr fun enc ↦ ?_
    simp only [false_and, and_false, exists_false, or_false]
    constructor
    · rintro (henc | ⟨a, e₁, _, ha, ⟨as, e₂, e₃, hlt, has, hlast, rfl⟩, rfl⟩)
      · exact ⟨[], [], enc, Nat.zero_lt_succ count, Grammar.items_nil.mpr rfl, henc, rfl⟩
      · exact ⟨a :: as, e₁ ++ e₂, e₃, Nat.succ_lt_succ hlt,
          Grammar.items_cons.mpr ⟨e₁, e₂, ha, has, rfl⟩, hlast, (List.append_assoc ..).symm⟩
    · rintro ⟨as, e₁, e₂, hlt, has, hlast, rfl⟩
      cases as with
      | nil =>
        rw [Grammar.items_nil.mp has]
        exact .inl hlast
      | cons a as =>
        obtain ⟨e₀, e₁, ha, hothers, rfl⟩ := Grammar.items_cons.mp has
        exact .inr ⟨a, e₀, e₁ ++ e₂, ha,
          ⟨as, e₁, e₂, Nat.lt_of_succ_lt_succ hlt, hothers, hlast, rfl⟩, List.append_assoc ..⟩

theorem Refuses.wholeVector (h : Refuses d e T) (hreads : Reads d G) (he : e.IsForeign)
    (place : String) :
    Refuses (wholeVector d place) e fun enc ↦ ∃ n count as e₁ e₂, Grammar.u32 n count ∧
      as.length < n ∧ G.items as e₁ ∧ T e₂ ∧ enc = count ++ (e₁ ++ e₂) := by
  have hvector : Refuses (vector d) e _ :=
    reads_u32.bind_refuses (confined_u32.refuses he) fun count ↦ h.repeated hreads count
  have hend (as : List α) : Refuses (do expectEnd place; return as) e fun _ ↦ False :=
    Confined.refuses ((confined_expectEnd place).bind fun _ ↦ confined_pure as) he
  refine (hvector.bind (reads_vector hreads) hend).congr fun enc ↦ ?_
  simp only [false_and, and_false, exists_false, or_false]
  constructor
  · rintro ⟨n, count, _, hcount, ⟨as, e₁, e₂, hlt, has, hlast, rfl⟩, rfl⟩
    exact ⟨n, count, as, e₁, e₂, hcount, hlt, has, hlast, rfl⟩
  · rintro ⟨n, count, as, e₁, e₂, hcount, hlt, has, hlast, rfl⟩
    exact ⟨n, count, e₁ ++ e₂, hcount, ⟨as, e₁, e₂, hlt, has, hlast, rfl⟩, rfl⟩

theorem Refuses.value_eq_error (h : Refuses d e T) {w : Window} :
    d.value w = .error e ↔ ∃ enc rest, T enc ∧ w.bytes = enc ++ rest := by
  have hvalue : d.value w = .error e ↔ ∃ w', d.run w = .error e w' := by
    rw [value, EStateM.run]
    cases d w with
    | ok a w' => simp
    | error e' w' => simp
  rw [hvalue]
  constructor
  · rintro ⟨w', hrun⟩
    obtain ⟨enc, henc, hskips⟩ := h.run_eq_error.mp hrun
    exact ⟨enc, w'.bytes, henc, hskips.1⟩
  · rintro ⟨enc, rest, henc, hbytes⟩
    exact ⟨⟨w.offset + enc.length, rest⟩, h.run_eq_error.mpr ⟨enc, henc, hbytes, rfl⟩⟩

end Decoder

/-! ## Where the import section is refused -/

section Foreign

variable {module name : String} {kind : ImportKind}

theorem isForeign_nonFunctionImport : (ScanError.nonFunctionImport module name kind).IsForeign :=
  ⟨module, name, kind, rfl⟩

/-- A decoder whose errors all have an offset never ends in this one. -/
theorem Decoder.Confined.refuses_foreign {α : Type} {d : Decoder α}
    (h : Confined (fun _ ↦ False) 0 d) :
    Refuses d (.nonFunctionImport module name kind) fun _ ↦ False :=
  h.refuses isForeign_nonFunctionImport

/-- An entry is refused with its names and its kind. -/
theorem refuses_importEntry :
    Refuses ImportEntry.decode (.nonFunctionImport module name kind)
      (ForeignEntry module name kind) := by
  refine (reads_name.bind_refuses confined_name.refuses_foreign fun module' ↦
    reads_name.bind_refuses confined_name.refuses_foreign fun name' ↦
      refuses_position_bind fun start ↦ reads_byte.bind_refuses
        (H := fun b enc ↦ (module' = module ∧ name' = name) ∧ kind ≠ .function ∧ b = kind.byte ∧
          enc = [])
        confined_byte.refuses_foreign fun b ↦ ?_).congr fun enc ↦ ?_
  · have hbyte : b = kind.byte ↔ ImportKind.ofByte? b = some kind :=
      ImportKind.ofByte?_eq_some.symm
    rw [hbyte]
    cases hb : ImportKind.ofByte? b with
    | none =>
      refine (refuses_throw (.malformed start (.importKind b))).congr fun enc ↦ ?_
      simp
    | some kind' =>
      cases kind' with
      | function =>
        have hindex :
            Confined (fun _ ↦ False) 0 (do return (⟨module', name', ← u32⟩ : ImportEntry)) :=
          confined_u32.bind fun index ↦ confined_pure _
        refine hindex.refuses_foreign.congr fun enc ↦ ?_
        rw [false_iff]
        rintro ⟨-, hne, hkind, -⟩
        exact hne (Option.some.inj hkind).symm
      | table | memory | global | tag =>
        refine (refuses_throw (.nonFunctionImport module' name' _)).congr fun enc ↦ ?_
        constructor
        · rintro ⟨h, rfl⟩
          cases h
          exact ⟨⟨rfl, rfl⟩, nofun, rfl, rfl⟩
        · rintro ⟨⟨rfl, rfl⟩, -, hkind, rfl⟩
          cases hkind
          exact ⟨rfl, rfl⟩
  · constructor
    · rintro ⟨_, e₁, _, hmodule, ⟨_, e₂, _, hname, ⟨_, _, _, rfl, ⟨⟨rfl, rfl⟩, hkind, rfl, rfl⟩,
        rfl⟩, rfl⟩, rfl⟩
      exact .mk hmodule hname hkind
    · rintro ⟨hmodule, hname, hkind⟩
      exact ⟨_, _, _, hmodule, ⟨_, _, _, hname, ⟨_, _, [], rfl, ⟨⟨rfl, rfl⟩, hkind, rfl, rfl⟩,
        rfl⟩, rfl⟩, rfl⟩

/-- An import section is refused with the first import that is no function. -/
theorem value_importSection_eq_foreign {w : Window} (place : String) :
    (wholeVector ImportEntry.decode place).value w =
        .error (.nonFunctionImport module name kind) ↔
      BeginsWithForeign module name kind w.bytes := by
  rw [(refuses_importEntry.wholeVector reads_importEntry isForeign_nonFunctionImport
    place).value_eq_error]
  constructor
  · rintro ⟨_, more, ⟨n, count, entries, written, foreign, hcount, hlt, hentries, hforeign, rfl⟩,
      hbytes⟩
    rw [hbytes, List.append_assoc, List.append_assoc]
    exact .mk hcount hlt hentries hforeign
  · intro h
    generalize w.bytes = bytes at h
    cases h with
    | @mk n entries count written foreign more hcount hlt hentries hforeign =>
      refine ⟨count ++ (written ++ foreign), more,
        ⟨n, count, entries, written, foreign, hcount, hlt, hentries, hforeign, rfl⟩, ?_⟩
      rw [List.append_assoc, List.append_assoc]

/-- Of all sections only an import section in its place is refused so. -/
theorem add_eq_foreign {d : Declarations} {s : Section} :
    d.add s = .error (.nonFunctionImport module name kind) ↔
      s.id = 2 ∧ d.rank < 2 ∧ BeginsWithForeign module name kind s.payload.bytes := by
  have hnever {α : Type} {c : Decoder α} (hc : Confined (fun _ ↦ False) 0 c) :
      c.value s.payload ≠ .error (.nonFunctionImport module name kind) := by
    intro hvalue
    obtain ⟨_, _, hfalse, -⟩ := hc.refuses_foreign.value_eq_error.mp hvalue
    exact hfalse
  rw [add_eq_error]
  constructor
  · intro h
    generalize herror : ScanError.nonFunctionImport module name kind = e at h hnever
    cases h with
    | name _ h => exact absurd h (hnever confined_name)
    | unknown => cases herror
    | misplaced => cases herror
    | types _ _ h => exact absurd h (hnever (confined_recGroup.wholeVector _))
    | imports hid hrank h =>
      rw [← herror, value_importSection_eq_foreign] at h
      exact ⟨hid, hrank, h⟩
  · rintro ⟨hid, hrank, hforeign⟩
    exact .imports hid hrank ((value_importSection_eq_foreign _).mpr hforeign)

/-! ## The sections before -/

/-- Some bytes begin with these frames. What follows is left open. -/
def BeginsWithFrames (frames : List Frame) (bytes : List UInt8) : Prop :=
  ∃ framed rest, Grammar.items Frame.Encoding frames framed ∧ bytes = framed ++ rest

theorem beginsWithFrames_nil (bytes : List UInt8) : BeginsWithFrames [] bytes :=
  ⟨[], bytes, Grammar.items_nil.mpr rfl, rfl⟩

/-- Bytes that begin with a frame are bytes of which a section can be read. -/
theorem beginsWithFrames_cons_iff {f : Frame} {frames : List Frame} {w : Window} :
    BeginsWithFrames (f :: frames) w.bytes ↔ ∃ s w', Section.decode.run w = .ok s w' ∧
      s.frame = f ∧ BeginsWithFrames frames w'.bytes := by
  have hread {w' : Window} : (∃ enc, f.Encoding enc ∧ w.Skips enc w') ↔
      ∃ s, Section.decode.run w = .ok s w' ∧ s.frame = f := by
    rw [← reads_frame.run_eq_ok]
    simp only [run_bind_eq_ok, run_pure_eq_ok]
    constructor
    · rintro ⟨s, _, hs, hf, rfl⟩
      exact ⟨s, hs, hf⟩
    · rintro ⟨s, hs, hf⟩
      exact ⟨s, w', hs, hf, rfl⟩
  constructor
  · rintro ⟨_, rest, hframes, hbytes⟩
    obtain ⟨e₁, e₂, hf, hothers, rfl⟩ := Grammar.items_cons.mp hframes
    rw [List.append_assoc] at hbytes
    obtain ⟨s, hs, hsf⟩ := hread.mp
      ⟨e₁, hf, (⟨hbytes, rfl⟩ : w.Skips e₁ ⟨w.offset + e₁.length, e₂ ++ rest⟩)⟩
    exact ⟨s, _, hs, hsf, e₂, rest, hothers, rfl⟩
  · rintro ⟨s, w', hs, hsf, e₂, rest, hframes, hbytes⟩
    obtain ⟨e₁, hf, hskips⟩ := hread.mpr ⟨s, hs, hsf⟩
    refine ⟨e₁ ++ e₂, rest, Grammar.items_cons.mpr ⟨e₁, e₂, hf, hframes, rfl⟩, ?_⟩
    rw [hskips.1, hbytes, List.append_assoc]

/-- From what has been read so far, sections can be taken in up to an import section in its place
that is refused. -/
def Declarations.ComesToForeign (d : Declarations) (module name : String) (kind : ImportKind)
    (bytes : List UInt8) : Prop :=
  ∃ frames payload d', BeginsWithFrames (frames ++ [⟨2, payload⟩]) bytes ∧
    d.TakesAll frames d' ∧ d'.rank < 2 ∧ BeginsWithForeign module name kind payload

/-- One section: it is the import section itself, or it is taken in and the others come to it. -/
theorem comesToForeign_iff {d : Declarations} {w : Window} :
    d.ComesToForeign module name kind w.bytes ↔
      ∃ s w', Section.decode.run w = .ok s w' ∧
        ((s.id = 2 ∧ d.rank < 2 ∧ BeginsWithForeign module name kind s.payload.bytes) ∨
          ∃ d₁, d.Takes s.frame d₁ ∧ d₁.ComesToForeign module name kind w'.bytes) := by
  constructor
  · rintro ⟨frames, payload, d', hframes, hd, hrank, hforeign⟩
    cases frames with
    | nil =>
      obtain rfl := takesAll_nil.mp hd
      obtain ⟨s, w', hs, hframe, -⟩ := beginsWithFrames_cons_iff.mp hframes
      obtain ⟨hid, hpayload⟩ := Frame.mk.inj hframe
      rw [← hpayload] at hforeign
      exact ⟨s, w', hs, .inl ⟨hid, hrank, hforeign⟩⟩
    | cons f frames =>
      obtain ⟨d₁, hf, hothers⟩ := takesAll_cons.mp hd
      obtain ⟨s, w', hs, rfl, hbegins⟩ := beginsWithFrames_cons_iff.mp hframes
      exact ⟨s, w', hs, .inr ⟨d₁, hf, frames, payload, d', hbegins, hothers, hrank, hforeign⟩⟩
  · rintro ⟨s, w', hs, ⟨hid, hrank, hforeign⟩ | ⟨d₁, hf, frames, payload, d', hframes, hd, hrank,
      hforeign⟩⟩
    · refine ⟨[], s.payload.bytes, d, ?_, .nil d, hrank, hforeign⟩
      refine beginsWithFrames_cons_iff.mpr ⟨s, w', hs, ?_, beginsWithFrames_nil _⟩
      rw [Section.frame, hid]
    · refine ⟨s.frame :: frames, payload, d', ?_, .cons hf hd, hrank, hforeign⟩
      exact beginsWithFrames_cons_iff.mpr ⟨s, w', hs, rfl, hframes⟩

/-- The walk over the sections ends with an import that is no function exactly where the sections
come to one. -/
theorem addAll_eq_foreign {d : Declarations} {w : Window} :
    d.addAll w = .error (.nonFunctionImport module name kind) ↔
      d.ComesToForeign module name kind w.bytes := by
  rw [comesToForeign_iff]
  fun_induction Declarations.addAll d w with
  | case1 d w hnil =>
    simp only [reduceCtorEq, false_iff]
    rintro ⟨s, w', hs, -⟩
    have hlength := consumes_section hs
    rw [List.isEmpty_iff.mp hnil] at hlength
    exact Nat.not_succ_le_zero _ hlength
  | case2 d w hnil e rest hdecode =>
    constructor
    · intro h
      cases h
      obtain ⟨_, hfalse, -⟩ := confined_section.refuses_foreign.run_eq_error.mp hdecode
      exact hfalse.elim
    · rintro ⟨s, w', hs, -⟩
      cases hdecode.symm.trans hs
  | case3 d w hnil s rest hdecode hlen e hadd =>
    rw [← hadd, add_eq_foreign]
    constructor
    · intro h
      exact ⟨s, rest, hdecode, .inl h⟩
    · rintro ⟨s', w', hs, h | ⟨d₁, hf, -⟩⟩
      · cases hdecode.symm.trans hs
        exact h
      · cases hdecode.symm.trans hs
        cases hadd.symm.trans (add_eq_ok.mpr hf)
  | case4 d w hnil s rest hdecode hlen d₁ hadd ih =>
    rw [ih, ← comesToForeign_iff]
    constructor
    · intro h
      exact ⟨s, rest, hdecode, .inr ⟨d₁, add_eq_ok.mp hadd, h⟩⟩
    · rintro ⟨s', w', hs, h | ⟨d₂, hf, h⟩⟩
      · cases hdecode.symm.trans hs
        cases hadd.symm.trans (add_eq_foreign.mpr h)
      · cases hdecode.symm.trans hs
        cases hadd.symm.trans (add_eq_ok.mpr hf)
        exact h

end Foreign

/-! ## Sections before an import section -/

theorem takesAll_concat {d d' : Declarations} {frames : List Frame} {f : Frame} :
    d.TakesAll (frames ++ [f]) d' ↔ ∃ d₁, d.TakesAll frames d₁ ∧ d₁.Takes f d' := by
  induction frames generalizing d with
  | nil => simp [takesAll_nil, takesAll_cons]
  | cons g frames ih =>
    simp only [List.cons_append, takesAll_cons, ih]
    constructor
    · rintro ⟨d₁, hg, d₂, hd, hf⟩
      exact ⟨d₂, ⟨d₁, hg, hd⟩, hf⟩
    · rintro ⟨d₂, ⟨d₁, hg, hd⟩, hf⟩
      exact ⟨d₁, hg, d₂, hd, hf⟩

theorem sectionSays_concat_ne {α : Type} {id : UInt8} {G : Grammar α} {before a : α} {f : Frame}
    {frames : List Frame} (hf : f.id ≠ id) :
    SectionSays id G before (frames ++ [f]) a ↔ SectionSays id G before frames a := by
  simp [SectionSays, or_imp, forall_and, hf]

/-- Before a section there is no other one of its kind. -/
theorem Ordered.id_ne_of_concat {least : ℕ} {frames : List Frame} {f : Frame} (hf : f.id ≠ 0)
    (h : Ordered least (frames ++ [f])) : ∀ g ∈ frames, g.id ≠ f.id := by
  intro g hg hid
  have hids : orderedIds (frames ++ [f]) = orderedIds frames ++ [f.id] := by
    simp [orderedIds, hf]
  have hmem : f.id ∈ orderedIds frames :=
    List.mem_filter.mpr ⟨hid ▸ List.mem_map_of_mem hg, by simpa using hf⟩
  have hpairwise := h.2
  rw [hids, List.pairwise_append] at hpairwise
  exact Nat.lt_irrefl _ (hpairwise.2.2 f.id hmem f.id List.mem_cons_self)

theorem Declarations.Takes.rank_lt_of_imports {d d' : Declarations} {f : Frame}
    (h : d.Takes f d') (hid : f.id = 2) : d.rank < 2 := by
  cases h with
  | custom h0 => exact absurd (h0.symm.trans hid) (by decide)
  | types h1 => exact absurd (h1.symm.trans hid) (by decide)
  | imports _ hrank => exact hrank
  | other _ h2 => exact absurd hid h2

/-- An import section without imports. -/
def emptyImports : Frame := ⟨2, [0x00]⟩

theorem importSection_emptyImports : Grammar.importSection [] emptyImports.payload :=
  ⟨[0x00], [], ⟨⟨[], 0x00, rfl, by decide, nofun, by decide⟩, rfl, by decide⟩,
    Grammar.items_nil.mpr rfl, rfl⟩

/-- What is expected of sections with an empty import section behind them. -/
theorem expects_concat_emptyImports {frames : List Frame} {groups : List RecGroup} :
    Declarations.Expects {} (frames ++ [emptyImports]) groups [] ↔
      (∀ f ∈ frames, f.id = 0 → BeginsWithName f.payload) ∧
        Ordered 0 (frames ++ [emptyImports]) ∧
        SectionSays 1 Grammar.typeSection [] frames groups := by
  constructor
  · rintro ⟨hnamed, hordered, htypes, -⟩
    exact ⟨fun f hf ↦ hnamed f (List.mem_append_left _ hf), hordered,
      (sectionSays_concat_ne (by decide)).mp htypes⟩
  · rintro ⟨hnamed, hordered, htypes⟩
    refine ⟨?_, hordered, (sectionSays_concat_ne (by decide)).mpr htypes, ?_, fun _ ↦ rfl⟩
    · intro f hf hid
      rcases List.mem_append.mp hf with hf | hf
      · exact hnamed f hf hid
      · rw [List.mem_singleton.mp hf] at hid
        exact absurd hid (by decide)
    · intro f hf hid
      rcases List.mem_append.mp hf with hf | hf
      · exact absurd hid (hordered.id_ne_of_concat (by decide) f hf)
      · rw [List.mem_singleton.mp hf]
        exact importSection_emptyImports

/-- What there is before an import section in its place, whatever its content: the sections have
their names and keep to the order together with it, and the type section can be read. -/
theorem exists_takesAll_iff {frames : List Frame} (payload : List UInt8) :
    (∃ d : Declarations, Declarations.TakesAll {} frames d ∧ d.rank < 2) ↔
      (∀ f ∈ frames, f.id = 0 → BeginsWithName f.payload) ∧
        Ordered 0 (frames ++ [⟨2, payload⟩]) ∧
        ∃ groups, SectionSays 1 Grammar.typeSection [] frames groups := by
  -- The order of sections does not depend on what they contain, so the content can be empty.
  have hordered : Ordered 0 (frames ++ [⟨2, payload⟩]) ↔ Ordered 0 (frames ++ [emptyImports]) := by
    simp only [Ordered, orderedIds, List.map_append]
    rfl
  rw [hordered]
  constructor
  · rintro ⟨d, hd, hrank⟩
    have hlast : d.Takes emptyImports ⟨2, d.groups, []⟩ :=
      .imports rfl hrank importSection_emptyImports
    have hall := Declarations.takesAll_iff.mp ⟨2, takesAll_concat.mpr ⟨d, hd, hlast⟩⟩
    obtain ⟨hnamed, hordered, htypes⟩ := expects_concat_emptyImports.mp hall
    exact ⟨hnamed, hordered, d.groups, htypes⟩
  · rintro ⟨hnamed, hordered, groups, htypes⟩
    have hall := expects_concat_emptyImports.mpr ⟨hnamed, hordered, htypes⟩
    obtain ⟨rank, hd⟩ := Declarations.takesAll_iff.mpr hall
    obtain ⟨d, hd, hlast⟩ := takesAll_concat.mp hd
    exact ⟨d, hd, hlast.rank_lt_of_imports rfl⟩

/-! ## The whole scan -/

/-- Some bytes lead to an import section with this content. Behind the header there are framed
sections and then the import section. Those before it are in order, together with it, and can be
read. What follows it is left open. -/
structure LeadsToImports (bytes : List UInt8) (frames : List Frame) (payload : List UInt8) :
    Prop where
  framed : ∃ body, bytes = [0x00, 0x61, 0x73, 0x6D] ++ ([0x01, 0x00, 0x00, 0x00] ++ body) ∧
    BeginsWithFrames (frames ++ [⟨2, payload⟩]) body
  /-- Custom sections begin with a name. -/
  named : ∀ f ∈ frames, f.id = 0 → BeginsWithName f.payload
  /-- All other sections are of a kind that has a place in the order. -/
  known : ∀ id ∈ orderedIds (frames ++ [⟨2, payload⟩]), id ∈ sectionOrder
  /-- Their places increase. -/
  increasing : (orderedIds (frames ++ [⟨2, payload⟩])).Pairwise fun a b ↦
    sectionOrder.idxOf a < sectionOrder.idxOf b
  /-- The type section is one vector of groups. -/
  types : ∃ groups, SectionSays 1 Grammar.typeSection [] frames groups

theorem ofBytes_eq_foreign {bytes : List UInt8} {module name : String} {kind : ImportKind} :
    Declarations.ofBytes bytes = .error (.nonFunctionImport module name kind) ↔
      ∃ frames payload, LeadsToImports bytes frames payload ∧
        BeginsWithForeign module name kind payload := by
  have hheader : Declarations.ofBytes bytes = .error (.nonFunctionImport module name kind) ↔
      ∃ body, bytes = magic ++ (version ++ body) ∧
        Declarations.ComesToForeign {} module name kind body := by
    constructor
    · intro h
      rcases exists_body_or_malformed bytes with ⟨body, rfl⟩ | ⟨_, _, hmalformed⟩
      · rw [ofBytes_header] at h
        exact ⟨body, rfl, addAll_eq_foreign.mp h⟩
      · rw [hmalformed] at h
        cases h
    · rintro ⟨body, rfl, h⟩
      rw [ofBytes_header]
      exact addAll_eq_foreign.mpr h
  rw [hheader]
  constructor
  · rintro ⟨body, hbytes, frames, payload, d, hframes, hd, hrank, hforeign⟩
    obtain ⟨hnamed, hordered, htypes⟩ := (exists_takesAll_iff payload).mp ⟨d, hd, hrank⟩
    exact ⟨frames, payload, ⟨⟨body, hbytes, hframes⟩, hnamed, fun id hid ↦ (hordered.1 id hid).1,
      hordered.2, htypes⟩, hforeign⟩
  · rintro ⟨frames, payload, ⟨⟨body, hbytes, hframes⟩, hnamed, hknown, hincreasing, htypes⟩,
      hforeign⟩
    have hordered : Ordered 0 (frames ++ [⟨2, payload⟩]) :=
      ⟨fun id hid ↦ ⟨hknown id hid, Nat.zero_le _⟩, hincreasing⟩
    obtain ⟨d, hd, hrank⟩ := (exists_takesAll_iff payload).mpr ⟨hnamed, hordered, htypes⟩
    exact ⟨body, hbytes, frames, payload, d, hframes, hd, hrank, hforeign⟩

/-- No index is looked up while sections are read. -/
theorem ofBytes_ne_unresolved {bytes : List UInt8} {module name : String} {index : ℕ} :
    Declarations.ofBytes bytes ≠ .error (.unresolvedType module name index) := by
  intro h
  rcases exists_body_or_malformed bytes with ⟨body, rfl⟩ | ⟨_, _, hmalformed⟩
  · rcases ofBytes_header_eq_error h with ⟨_, _, _, hforeign⟩ | ⟨_, _, hwithin, -⟩
    · cases hforeign
    · cases hwithin
  · rw [hmalformed] at h
    cases h

/-- **Which error a scan ends in.** An import that is no function is reported, with its names and
its kind, if and only if the bytes lead to an import section that begins with it: whatever comes
behind the kind, and whether or not the scan requires functions for C. An index without a
declaration is reported, with the names of its import, if and only if the bytes are a module in
which this import is the first one that does not refer to a function type, and there are too few
declarations for its index. -/
theorem importsOf_errors (bytes : List UInt8) :
    (∀ requireCAbi module name kind,
      importsOf bytes requireCAbi = .error (.nonFunctionImport module name kind) ↔
        ∃ frames payload, LeadsToImports bytes frames payload ∧
          BeginsWithForeign module name kind payload) ∧
    ∀ module name index,
      importsOf bytes = .error (.unresolvedType module name index) ↔
        ∃ frames groups before after,
          IsModule bytes frames groups (before ++ ⟨module, name, index⟩ :: after) ∧
            (∀ e ∈ before, DeclaresFunction groups e.typeIndex) ∧
            declaredCount groups ≤ index := by
  constructor
  · intro requireCAbi module name kind
    rw [importsOf_eq_error, ofBytes_eq_foreign]
    constructor
    · rintro (h | ⟨frames, groups, before, e, after, -, -, he⟩)
      · exact h
      · rcases resolve_eq_error.mp he with ⟨-, hunresolved⟩ | ⟨_, -, hmalformed⟩
        · cases hunresolved
        · cases hmalformed
    · intro h
      exact .inl h
  · intro module name index
    rw [importsOf_eq_error]
    simp only [Bool.false_eq_true, false_implies, and_true, exists_resolves_iff]
    constructor
    · rintro (h | ⟨frames, groups, before, e, after, hmodule, hbefore, he⟩)
      · exact absurd h ofBytes_ne_unresolved
      · rcases resolve_eq_error.mp he with ⟨hout, hunresolved⟩ | ⟨_, -, hmalformed⟩
        · cases hunresolved
          exact ⟨frames, groups, before, after, hmodule, hbefore, hout⟩
        · cases hmalformed
    · rintro ⟨frames, groups, before, after, hmodule, hbefore, hout⟩
      exact .inr ⟨frames, groups, before, _, after, hmodule, hbefore,
        resolve_eq_error.mpr (.inl ⟨hout, rfl⟩)⟩

/-- A memory is reported although an index before it is out of range, what follows it is no entry
and the section behind it is broken. -/
example : importsOf (magic ++ version ++ [0x02, 0x0D, 0x05, 0x01, 0x61, 0x01, 0x62, 0x00, 0x09,
    0x01, 0x61, 0x01, 0x6D, 0x02, 0xFF, 0x63]) = .error (.nonFunctionImport "a" "m" .memory) := by
  decide +kernel

end CallGate.Wasm
