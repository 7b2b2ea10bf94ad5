import CallGate.Proofs.Data.Outcome
import CallGate.Proofs.Wasm.TypeSection

/-!
# The grammar of modules

A module is a header and framed sections; what it says about types and imports stands in two of
them. The scan walks over the sections with a state, `Declarations`, and refuses at the first thing
that is wrong. Here the walk is compared with what can be said of all sections together.

One section is taken in by `Declarations.Takes`, a relation with a constructor for each kind of
section, and a walk over many is `Declarations.TakesAll`. What a walk amounts to is
`Declarations.Expects` (`takesAll_iff`), by induction on the sections from any state: the state
remembers the rank of the last section only, so that the induction has to carry a lower bound for
the ranks to come (`Ordered`). That each kind of section comes at most once is not stated anywhere,
it follows from the bound.
-/

namespace CallGate.Wasm

open Decoder Data

/-! ## Sections -/

/-- A section without its place: its id and its content. -/
structure Frame where
  id : UInt8
  payload : List UInt8
deriving DecidableEq, Repr

def Section.frame (s : Section) : Frame := ⟨s.id, s.payload.bytes⟩

@[simp] theorem Section.frame_id (s : Section) : s.frame.id = s.id := rfl

/-- How a section is framed: its id, the size of its content in any encoding, and the content. -/
inductive Frame.Encoding : Frame → List UInt8 → Prop
  | mk {id : UInt8} {size payload : List UInt8} (h : Grammar.u32 payload.length size) :
      Encoding ⟨id, payload⟩ (id :: (size ++ payload))

theorem Frame.visible_encoding : Grammar.Visible Frame.Encoding := nofun

theorem window_eq_ok {size : ℕ} {w w' part : Window} :
    (window size).run w = .ok part w' ↔
      part.offset = w.offset ∧ part.bytes.length = size ∧ w.Skips part.bytes w' := by
  obtain ⟨offset, bs⟩ := w
  obtain ⟨offset', bs'⟩ := w'
  obtain ⟨start, content⟩ := part
  simp only [EStateM.run, window, failHere, Window.Skips]
  split
  · next hlt =>
    simp only [reduceCtorEq, false_iff, not_and]
    rintro - rfl rfl -
    rw [List.length_append] at hlt
    omega
  · next hle =>
    simp only [EStateM.Result.ok.injEq, Window.mk.injEq]
    constructor
    · rintro ⟨⟨rfl, rfl⟩, rfl, rfl⟩
      have hlen : (bs.take size).length = size := List.length_take_of_le (Nat.le_of_not_lt hle)
      exact ⟨rfl, hlen, (List.take_append_drop size bs).symm, by rw [hlen]⟩
    · rintro ⟨rfl, rfl, rfl, rfl⟩
      simp

/-- Sections are read as they are framed, and remember where their frame begins and ends. -/
theorem section_eq_ok {w w' : Window} {s : Section} :
    Section.decode.run w = .ok s w' ↔
      s.offset = w.offset ∧ s.payload.stop = w'.offset ∧
        ∃ enc, s.frame.Encoding enc ∧ w.Skips enc w' := by
  obtain ⟨offset, id, payload⟩ := s
  simp only [Section.decode, run_bind_eq_ok, run_pure_eq_ok, byte_eq_ok, reads_u32.run_eq_ok,
    window_eq_ok, Section.mk.injEq, Window.stop]
  constructor
  · rintro ⟨_, _, hp, _, _, ⟨rest, hb, rfl⟩, _, w₂, ⟨size, hsize, hs⟩, part, w₃,
      ⟨ho, rfl, hpart⟩, ⟨rfl, rfl, rfl⟩, rfl⟩
    cases hp
    refine ⟨rfl, by rw [hpart.2, ho], _, .mk hsize, ?_⟩
    exact Window.skips_cons.mpr ⟨rest, hb, Window.skips_append.mpr ⟨w₂, hs, hpart⟩⟩
  · rintro ⟨rfl, hstop, _, ⟨hsize⟩, hs⟩
    obtain ⟨rest, hb, hs⟩ := Window.skips_cons.mp hs
    obtain ⟨w₂, hs₁, hs₂⟩ := Window.skips_append.mp hs
    have ho : payload.offset = w₂.offset := by
      have hend : w'.offset = w₂.offset + payload.bytes.length := hs₂.2
      omega
    exact ⟨_, w, rfl, id, _, ⟨rest, hb, rfl⟩, _, w₂, ⟨_, hsize, hs₁⟩, payload, w',
      ⟨ho, rfl, hs₂⟩, ⟨rfl, rfl, rfl⟩, rfl⟩

theorem reads_frame : Reads (do return (← Section.decode).frame) Frame.Encoding := by
  intro w w' f
  simp only [run_bind_eq_ok, run_pure_eq_ok, section_eq_ok]
  constructor
  · rintro ⟨s, _, ⟨-, -, enc, henc, hs⟩, rfl, rfl⟩
    exact ⟨enc, henc, hs⟩
  · rintro ⟨enc, henc, hs⟩
    have hlen : f.payload.length ≤ w'.offset := by
      obtain ⟨h⟩ := henc
      have := hs.2
      simp only [List.length_cons, List.length_append] at this ⊢
      omega
    refine ⟨⟨w.offset, f.id, ⟨w'.offset - f.payload.length, f.payload⟩⟩, w', ⟨rfl, ?_, enc, henc,
      hs⟩, rfl, rfl⟩
    exact Nat.sub_add_cancel hlen

/-! ## Imports -/

/-- How the import of a function is written: two names, the kind of functions, and an index. -/
inductive ImportEntry.Encoding : ImportEntry → List UInt8 → Prop
  | mk {module name : String} {typeIndex : ℕ} {e₁ e₂ e₃ : List UInt8}
      (hmodule : Grammar.name module e₁) (hname : Grammar.name name e₂)
      (hindex : Grammar.u32 typeIndex e₃) :
      Encoding ⟨module, name, typeIndex⟩ (e₁ ++ (e₂ ++ 0x00 :: e₃))

theorem ImportEntry.visible_encoding : Grammar.Visible ImportEntry.Encoding := by
  intro e h
  generalize hnil : ([] : List UInt8) = enc at h
  cases h with
  | mk hmodule hname hindex => simp at hnil

/-- The byte that stands for a kind. -/
def ImportKind.byte : ImportKind → UInt8
  | function => 0x00
  | table => 0x01
  | memory => 0x02
  | global => 0x03
  | tag => 0x04

theorem ImportKind.ofByte?_eq_some {b : UInt8} {kind : ImportKind} :
    ImportKind.ofByte? b = some kind ↔ b = kind.byte := by
  constructor
  · intro h
    unfold ImportKind.ofByte? at h
    split at h <;> cases h <;> rfl
  · rintro rfl
    cases kind <;> rfl

theorem reads_importEntry : Reads ImportEntry.decode ImportEntry.Encoding := by
  refine (reads_name.bind fun module ↦ reads_name.bind
    (H := fun name e enc ↦ ∃ typeIndex e₃, e = ⟨module, name, typeIndex⟩ ∧
      Grammar.u32 typeIndex e₃ ∧ enc = 0x00 :: e₃)
    fun name ↦ reads_position_bind fun start ↦
      reads_byte_bind (by rintro e ⟨_, _, -, -, h⟩; cases h) fun b ↦ ?_).congr fun e enc ↦ ?_
  · by_cases hb : b = 0x00
    · subst hb
      refine (reads_u32.bind_pure fun typeIndex ↦
        (⟨module, name, typeIndex⟩ : ImportEntry)).congr fun e enc ↦ ?_
      constructor
      · rintro ⟨typeIndex, rfl, h⟩
        exact ⟨typeIndex, enc, rfl, h, rfl⟩
      · rintro ⟨typeIndex, _, rfl, h, heq⟩
        cases heq
        exact ⟨typeIndex, rfl, h⟩
    · -- The other kinds are known, and refused all the same.
      have hfalse (e : ImportEntry) (enc : List UInt8) : False ↔
          ∃ typeIndex e₃, e = ⟨module, name, typeIndex⟩ ∧ Grammar.u32 typeIndex e₃ ∧
            b :: enc = 0x00 :: e₃ := by
        rw [false_iff]
        rintro ⟨_, _, -, -, heq⟩
        exact hb (List.cons.inj heq).1
      cases hk : ImportKind.ofByte? b with
      | none => exact (reads_failAt start _).congr hfalse
      | some kind =>
        cases kind with
        | function => exact absurd (ImportKind.ofByte?_eq_some.mp hk) hb
        | table | memory | global | tag => exact (reads_throw _).congr hfalse
  · constructor
    · rintro ⟨module, e₁, _, hmodule, ⟨name, e₂, _, hname, ⟨typeIndex, e₃, rfl, hindex, rfl⟩,
        rfl⟩, rfl⟩
      exact .mk hmodule hname hindex
    · rintro ⟨hmodule, hname, hindex⟩
      exact ⟨_, _, _, hmodule, ⟨_, _, _, hname, ⟨_, _, rfl, hindex, rfl⟩, rfl⟩, rfl⟩

/-- How the content of an import section is written. -/
def Grammar.importSection : Grammar (List ImportEntry) := Grammar.vector ImportEntry.Encoding

theorem reads_importSection : Reads (vector ImportEntry.decode) Grammar.importSection :=
  reads_vector reads_importEntry

/-! ## The prescribed order -/

/-- The ids of all sections but custom ones, in the order in which sections have to come. -/
def sectionOrder : List UInt8 := [1, 2, 3, 4, 5, 13, 6, 7, 8, 9, 12, 10, 11]

theorem sectionRank?_eq_some {id : UInt8} {rank : ℕ} :
    sectionRank? id = some rank ↔ id ∈ sectionOrder ∧ rank = sectionOrder.idxOf id + 1 := by
  constructor
  · intro h
    unfold sectionRank? at h
    split at h <;> cases h <;> decide
  · rintro ⟨hid, rfl⟩
    simp only [sectionOrder, List.mem_cons, List.not_mem_nil, or_false] at hid
    rcases hid with rfl | rfl | rfl | rfl | rfl | rfl | rfl | rfl | rfl | rfl | rfl | rfl | rfl <;>
      rfl

/-- The ids of the sections that have a place in the order. -/
def orderedIds (frames : List Frame) : List UInt8 := (frames.map (·.id)).filter (· ≠ 0)

/-- The sections keep to the order, and none of them belongs before place `least`. -/
def Ordered (least : ℕ) (frames : List Frame) : Prop :=
  (∀ id ∈ orderedIds frames, id ∈ sectionOrder ∧ least ≤ sectionOrder.idxOf id) ∧
    (orderedIds frames).Pairwise fun a b ↦ sectionOrder.idxOf a < sectionOrder.idxOf b

theorem ordered_cons_custom {least : ℕ} {f : Frame} {frames : List Frame} (hf : f.id = 0) :
    Ordered least (f :: frames) ↔ Ordered least frames := by
  simp [Ordered, orderedIds, hf]

theorem ordered_cons {least : ℕ} {f : Frame} {frames : List Frame} (hf : f.id ≠ 0) :
    Ordered least (f :: frames) ↔
      (f.id ∈ sectionOrder ∧ least ≤ sectionOrder.idxOf f.id) ∧
        Ordered (sectionOrder.idxOf f.id + 1) frames := by
  have hids : orderedIds (f :: frames) = f.id :: orderedIds frames := by simp [orderedIds, hf]
  rw [Ordered, Ordered, hids, List.forall_mem_cons, List.pairwise_cons]
  constructor
  · rintro ⟨⟨hf, hfs⟩, hlt, hpw⟩
    exact ⟨hf, fun id hid ↦ ⟨(hfs id hid).1, hlt id hid⟩, hpw⟩
  · rintro ⟨hf, hfs, hpw⟩
    refine ⟨⟨hf, fun id hid ↦ ⟨(hfs id hid).1, ?_⟩⟩, fun id hid ↦ (hfs id hid).2, hpw⟩
    have hlt := (hfs id hid).2
    omega

/-- No section comes twice: behind a section there is none with an id before its place. -/
theorem Ordered.id_ne {least : ℕ} {frames : List Frame} (h : Ordered least frames) {id : UInt8}
    (hid : id ≠ 0) (hlt : sectionOrder.idxOf id < least) : ∀ f ∈ frames, f.id ≠ id := by
  rintro f hf rfl
  have hmem : f.id ∈ orderedIds frames :=
    List.mem_filter.mpr ⟨List.mem_map_of_mem hf, by simpa using hid⟩
  have hle := (h.1 f.id hmem).2
  omega

/-! ## The content of one section -/

variable {α : Type}

/-- What the section with an id says, if there is one: its content is an encoding of `a`. Without
such a section `a` is what there was before. -/
def SectionSays (id : UInt8) (G : Grammar α) (before : α) (frames : List Frame) (a : α) : Prop :=
  (∀ f ∈ frames, f.id = id → G a f.payload) ∧ ((∀ f ∈ frames, f.id ≠ id) → a = before)

variable {id : UInt8} {G : Grammar α} {before a : α} {f : Frame} {frames : List Frame}

theorem sectionSays_nil : SectionSays id G before [] a ↔ a = before := by
  simp [SectionSays]

theorem sectionSays_cons_ne (hf : f.id ≠ id) :
    SectionSays id G before (f :: frames) a ↔ SectionSays id G before frames a := by
  simp [SectionSays, hf]

/-- The section is there and comes once, so what there was before does not matter. -/
theorem sectionSays_cons_eq (hf : f.id = id) (hfs : ∀ f ∈ frames, f.id ≠ id) :
    SectionSays id G before (f :: frames) a ↔ G a f.payload := by
  constructor
  · rintro ⟨h, -⟩
    exact h f List.mem_cons_self hf
  · intro h
    refine ⟨fun g hg hid ↦ ?_, fun hne ↦ absurd hf (hne f List.mem_cons_self)⟩
    rcases List.mem_cons.mp hg with rfl | hg
    · exact h
    · exact absurd hid (hfs g hg)

theorem sectionSays_of_forall_ne (hfs : ∀ f ∈ frames, f.id ≠ id) :
    SectionSays id G before frames a ↔ a = before := by
  constructor
  · rintro ⟨-, h⟩
    exact h hfs
  · rintro rfl
    exact ⟨fun f hf hid ↦ absurd hid (hfs f hf), fun _ ↦ rfl⟩

/-! ## Taking in one section -/

/-- The content of a custom section begins with a name. -/
def BeginsWithName (payload : List UInt8) : Prop :=
  ∃ name enc rest, Grammar.name name enc ∧ payload = enc ++ rest

/-- What one more section does to what has been read of a module. -/
inductive Declarations.Takes (d : Declarations) (f : Frame) : Declarations → Prop
  | custom (hid : f.id = 0) (h : BeginsWithName f.payload) : d.Takes f d
  | types {groups : List RecGroup} (hid : f.id = 1) (hrank : d.rank < 1)
      (h : Grammar.typeSection groups f.payload) :
      d.Takes f { d with rank := 1, groups := groups }
  | imports {entries : List ImportEntry} (hid : f.id = 2) (hrank : d.rank < 2)
      (h : Grammar.importSection entries f.payload) :
      d.Takes f { d with rank := 2, imports := entries }
  | other {rank : ℕ} (h1 : f.id ≠ 1) (h2 : f.id ≠ 2) (hid : sectionRank? f.id = some rank)
      (hrank : d.rank < rank) : d.Takes f { d with rank := rank }

theorem exists_value_name {w : Window} :
    (∃ s, Decoder.name.value w = .ok s) ↔ BeginsWithName w.bytes := by
  simp only [value_eq_ok, reads_name.run_eq_ok]
  constructor
  · rintro ⟨s, w', enc, h, hs⟩
    exact ⟨s, enc, w'.bytes, h, hs.1⟩
  · rintro ⟨s, enc, rest, h, hw⟩
    exact ⟨s, ⟨w.offset + enc.length, rest⟩, enc, h, hw, rfl⟩

theorem takes_of_add_eq_ok {d d' : Declarations} {s : Section} (h : d.add s = .ok d') :
    d.Takes s.frame d' := by
  unfold Declarations.add at h
  split at h
  · next hid =>
    obtain ⟨name, hname, hd⟩ := Data.bind_eq_ok.mp h
    obtain rfl := Data.pure_eq_ok.mp hd
    exact .custom hid (exists_value_name.mp ⟨name, hname⟩)
  · split at h
    · cases h
    · next rank hrank =>
      split at h
      · cases h
      · next hle =>
        have hlt : d.rank < rank := Nat.lt_of_not_le hle
        split at h
        · next h1 =>
          obtain ⟨groups, hgroups, hd⟩ := Data.bind_eq_ok.mp h
          obtain rfl := Data.pure_eq_ok.mp hd
          obtain rfl : 1 = rank := Option.some.inj (by rw [← hrank, h1]; rfl)
          exact .types h1 hlt ((value_wholeVector reads_recGroup _).mp hgroups)
        · next h1 =>
          split at h
          · next h2 =>
            obtain ⟨entries, hentries, hd⟩ := Data.bind_eq_ok.mp h
            obtain rfl := Data.pure_eq_ok.mp hd
            obtain rfl : 2 = rank := Option.some.inj (by rw [← hrank, h2]; rfl)
            exact .imports h2 hlt ((value_wholeVector reads_importEntry _).mp hentries)
          · next h2 =>
            obtain rfl := Data.pure_eq_ok.mp h
            exact .other h1 h2 hrank hlt

theorem add_eq_ok_of_takes {d d' : Declarations} {s : Section} (h : d.Takes s.frame d') :
    d.add s = .ok d' := by
  unfold Declarations.add
  cases h with
  | custom hid h =>
    rw [Section.frame_id] at hid
    obtain ⟨name, hname⟩ := exists_value_name.mpr h
    rw [if_pos hid, hname]
    rfl
  | types hid hrank h =>
    rw [Section.frame_id] at hid
    have hgroups := (value_wholeVector reads_recGroup "type section").mpr h
    have hplace : ¬ 1 ≤ d.rank := Nat.not_le.mpr hrank
    simp [hid, sectionRank?, hplace, hgroups]
  | imports hid hrank h =>
    rw [Section.frame_id] at hid
    have hentries := (value_wholeVector reads_importEntry "import section").mpr h
    have hplace : ¬ 2 ≤ d.rank := Nat.not_le.mpr hrank
    simp [hid, sectionRank?, hplace, hentries]
  | other h1 h2 hid hrank =>
    rw [Section.frame_id] at h1 h2 hid
    have h0 : s.id ≠ 0 := by
      intro h0
      rw [h0] at hid
      cases hid
    rw [if_neg h0, hid]
    simp only [if_neg (Nat.not_le.mpr hrank), if_neg h1, if_neg h2]
    rfl

/-- Taking in a section does not look at where the section stands. -/
theorem add_eq_ok {d d' : Declarations} {s : Section} :
    d.add s = .ok d' ↔ d.Takes s.frame d' :=
  ⟨takes_of_add_eq_ok, add_eq_ok_of_takes⟩

/-! ## Taking in all sections -/

/-- What one section after the other does to what has been read of a module. -/
inductive Declarations.TakesAll : Declarations → List Frame → Declarations → Prop
  | nil (d : Declarations) : TakesAll d [] d
  | cons {d d₁ d₂ : Declarations} {f : Frame} {frames : List Frame} (h : d.Takes f d₁)
      (hs : TakesAll d₁ frames d₂) : TakesAll d (f :: frames) d₂

theorem takesAll_nil {d d' : Declarations} : d.TakesAll [] d' ↔ d' = d := by
  constructor
  · intro h
    cases h
    rfl
  · rintro rfl
    exact .nil d'

theorem takesAll_cons {d d' : Declarations} {f : Frame} {frames : List Frame} :
    d.TakesAll (f :: frames) d' ↔ ∃ d₁, d.Takes f d₁ ∧ d₁.TakesAll frames d' := by
  constructor
  · intro h
    cases h with
    | cons h hs => exact ⟨_, h, hs⟩
  · rintro ⟨d₁, h, hs⟩
    exact .cons h hs

/-- Where a section has been read, a list of sections begins with it. -/
theorem items_frame_iff {w w' : Window} {s : Section} (h : Section.decode.run w = .ok s w')
    {frames : List Frame} :
    Grammar.items Frame.Encoding frames w.bytes ↔
      ∃ others, frames = s.frame :: others ∧ Grammar.items Frame.Encoding others w'.bytes := by
  obtain ⟨-, -, enc, henc, hskips⟩ := section_eq_ok.mp h
  rw [hskips.1]
  constructor
  · intro hframes
    have hone : Grammar.items Frame.Encoding [s.frame] enc :=
      Grammar.items_cons.mpr ⟨enc, [], henc, Grammar.items_nil.mpr rfl, by simp⟩
    exact reads_frame.items_of_begins Frame.visible_encoding hone hframes
  · rintro ⟨others, rfl, hothers⟩
    exact Grammar.items_cons.mpr ⟨enc, w'.bytes, henc, hothers, rfl⟩

theorem addAll_eq_ok {d d' : Declarations} {w : Window} :
    d.addAll w = .ok d' ↔
      ∃ frames, Grammar.items Frame.Encoding frames w.bytes ∧ d.TakesAll frames d' := by
  fun_induction Declarations.addAll d w with
  | case1 d w hnil =>
    rw [List.isEmpty_iff] at hnil
    rw [Except.ok.injEq, hnil]
    constructor
    · rintro rfl
      exact ⟨[], Grammar.items_nil.mpr rfl, .nil d⟩
    · rintro ⟨frames, hframes, hd⟩
      obtain rfl := reads_frame.items_unique Frame.visible_encoding hframes
        (Grammar.items_nil.mpr rfl)
      exact (takesAll_nil.mp hd).symm
  | case2 d w hnil e rest hdecode =>
    simp only [reduceCtorEq, false_iff, not_exists, not_and]
    intro frames hframes
    cases frames with
    | nil => exact absurd (List.isEmpty_iff.mpr (Grammar.items_nil.mp hframes)) hnil
    | cons f frames =>
      -- A frame at the start of the window would have been read.
      obtain ⟨e₁, e₂, hf, -, hw⟩ := Grammar.items_cons.mp hframes
      have hok := reads_frame.run_eq_ok.mpr
        ⟨e₁, hf, (⟨hw, rfl⟩ : w.Skips e₁ ⟨w.offset + e₁.length, e₂⟩)⟩
      obtain ⟨s, w₁, hs, -⟩ := run_bind_eq_ok.mp hok
      exact absurd (hdecode.symm.trans hs) nofun
  | case3 d w hnil s rest hdecode hlen e hadd =>
    simp only [reduceCtorEq, false_iff, not_exists, not_and, items_frame_iff hdecode]
    rintro _ ⟨others, rfl, -⟩ hd
    obtain ⟨d₁, h, -⟩ := takesAll_cons.mp hd
    exact absurd (hadd.symm.trans (add_eq_ok.mpr h)) nofun
  | case4 d w hnil s rest hdecode hlen d₁ hadd ih =>
    simp only [ih, items_frame_iff hdecode]
    constructor
    · rintro ⟨frames, hframes, hd⟩
      exact ⟨_, ⟨frames, rfl, hframes⟩, .cons (add_eq_ok.mp hadd) hd⟩
    · rintro ⟨_, ⟨frames, rfl, hframes⟩, hd⟩
      obtain ⟨d₂, h, hs⟩ := takesAll_cons.mp hd
      obtain rfl : d₁ = d₂ := Except.ok.inj (hadd.symm.trans (add_eq_ok.mpr h))
      exact ⟨frames, hframes, hs⟩

/-! ## What a walk amounts to -/

/-- What can be said of all sections that are still to come, once `d` has been read: custom sections
have names, the others keep to the order from the rank of `d` on, and the groups and the imports are
in the end those that their sections say. -/
structure Declarations.Expects (d : Declarations) (frames : List Frame) (groups : List RecGroup)
    (entries : List ImportEntry) : Prop where
  named : ∀ f ∈ frames, f.id = 0 → BeginsWithName f.payload
  ordered : Ordered d.rank frames
  types : SectionSays 1 Grammar.typeSection d.groups frames groups
  imports : SectionSays 2 Grammar.importSection d.imports frames entries

section Expects

variable {d d₁ : Declarations} {f : Frame} {frames : List Frame} {groups : List RecGroup}
  {entries : List ImportEntry}

theorem Declarations.expects_nil :
    d.Expects [] groups entries ↔ groups = d.groups ∧ entries = d.imports := by
  constructor
  · rintro ⟨-, -, htypes, himports⟩
    exact ⟨sectionSays_nil.mp htypes, sectionSays_nil.mp himports⟩
  · rintro ⟨htypes, himports⟩
    exact ⟨nofun, ⟨by simp [orderedIds], by simp [orderedIds]⟩, sectionSays_nil.mpr htypes,
      sectionSays_nil.mpr himports⟩

/-- One section in front of what was expected after it. The rank is what keeps a second section of
the same kind from being expected, so that the first one has the last word. -/
theorem Declarations.Takes.expects (h : d.Takes f d₁) (hd : d₁.Expects frames groups entries) :
    d.Expects (f :: frames) groups entries := by
  obtain ⟨hnamed, hordered, htypes, himports⟩ := hd
  cases h with
  | custom hid h =>
    refine ⟨List.forall_mem_cons.mpr ⟨fun _ ↦ h, hnamed⟩, (ordered_cons_custom hid).mpr hordered,
      ?_, ?_⟩
    · exact (sectionSays_cons_ne (by rw [hid]; decide)).mpr htypes
    · exact (sectionSays_cons_ne (by rw [hid]; decide)).mpr himports
  | types hid hrank h =>
    have h0 : f.id ≠ 0 := by rw [hid]; decide
    -- The rank has passed type sections, so there is no other one to overrule this one.
    have hne : ∀ g ∈ frames, g.id ≠ 1 := hordered.id_ne (by decide) Nat.zero_lt_one
    obtain rfl := (sectionSays_of_forall_ne hne).mp htypes
    refine ⟨List.forall_mem_cons.mpr ⟨fun hf ↦ absurd hf h0, hnamed⟩, (ordered_cons h0).mpr ?_,
      (sectionSays_cons_eq hid hne).mpr h, ?_⟩
    · rw [hid]
      exact ⟨⟨by decide, Nat.le_of_lt_succ hrank⟩, hordered⟩
    · exact (sectionSays_cons_ne (by rw [hid]; decide)).mpr himports
  | imports hid hrank h =>
    have h0 : f.id ≠ 0 := by rw [hid]; decide
    have hne : ∀ g ∈ frames, g.id ≠ 2 := hordered.id_ne (by decide) Nat.one_lt_two
    obtain rfl := (sectionSays_of_forall_ne hne).mp himports
    refine ⟨List.forall_mem_cons.mpr ⟨fun hf ↦ absurd hf h0, hnamed⟩, (ordered_cons h0).mpr ?_,
      ?_, (sectionSays_cons_eq hid hne).mpr h⟩
    · rw [hid]
      exact ⟨⟨by decide, Nat.le_of_lt_succ hrank⟩, hordered⟩
    · exact (sectionSays_cons_ne (by rw [hid]; decide)).mpr htypes
  | other h1 h2 hid hrank =>
    obtain ⟨hmem, rfl⟩ := sectionRank?_eq_some.mp hid
    have h0 : f.id ≠ 0 := by
      intro h0
      rw [h0] at hmem
      exact absurd hmem (by decide)
    exact ⟨List.forall_mem_cons.mpr ⟨fun hf ↦ absurd hf h0, hnamed⟩,
      (ordered_cons h0).mpr ⟨⟨hmem, Nat.le_of_lt_succ hrank⟩, hordered⟩,
      (sectionSays_cons_ne h1).mpr htypes, (sectionSays_cons_ne h2).mpr himports⟩

/-- Where a section is expected, it is taken in. -/
theorem Declarations.Expects.exists_takes (h : d.Expects (f :: frames) groups entries) :
    ∃ d₁, d.Takes f d₁ ∧ d₁.Expects frames groups entries := by
  obtain ⟨hnamed, hordered, htypes, himports⟩ := h
  obtain ⟨hname, hnamed⟩ := List.forall_mem_cons.mp hnamed
  by_cases h0 : f.id = 0
  · rw [sectionSays_cons_ne (by rw [h0]; decide)] at htypes himports
    exact ⟨d, .custom h0 (hname h0), hnamed, (ordered_cons_custom h0).mp hordered, htypes, himports⟩
  obtain ⟨⟨hmem, hle⟩, hordered⟩ := (ordered_cons h0).mp hordered
  by_cases h1 : f.id = 1
  · rw [h1] at hle hordered
    have hne : ∀ g ∈ frames, g.id ≠ 1 := hordered.id_ne (by decide) Nat.zero_lt_one
    rw [sectionSays_cons_eq h1 hne] at htypes
    rw [sectionSays_cons_ne (by rw [h1]; decide)] at himports
    exact ⟨_, .types h1 (Nat.lt_succ_of_le hle) htypes, hnamed, hordered,
      (sectionSays_of_forall_ne hne).mpr rfl, himports⟩
  rw [sectionSays_cons_ne h1] at htypes
  by_cases h2 : f.id = 2
  · rw [h2] at hle hordered
    have hne : ∀ g ∈ frames, g.id ≠ 2 := hordered.id_ne (by decide) Nat.one_lt_two
    rw [sectionSays_cons_eq h2 hne] at himports
    exact ⟨_, .imports h2 (Nat.lt_succ_of_le hle) himports, hnamed, hordered, htypes,
      (sectionSays_of_forall_ne hne).mpr rfl⟩
  · rw [sectionSays_cons_ne h2] at himports
    exact ⟨_, .other h1 h2 (sectionRank?_eq_some.mpr ⟨hmem, rfl⟩) (Nat.lt_succ_of_le hle), hnamed,
      hordered, htypes, himports⟩

/-- **What a walk amounts to.** Sections can be taken in, with some groups and entries in the end,
exactly if these are what is expected of the sections. -/
theorem Declarations.takesAll_iff :
    (∃ rank, d.TakesAll frames ⟨rank, groups, entries⟩) ↔ d.Expects frames groups entries := by
  induction frames generalizing d with
  | nil =>
    simp only [takesAll_nil, expects_nil]
    constructor
    · rintro ⟨rank, rfl⟩
      exact ⟨rfl, rfl⟩
    · rintro ⟨rfl, rfl⟩
      exact ⟨d.rank, rfl⟩
  | cons f frames ih =>
    constructor
    · rintro ⟨rank, hs⟩
      obtain ⟨d₁, h, hs⟩ := takesAll_cons.mp hs
      exact h.expects (ih.mp ⟨rank, hs⟩)
    · intro h
      obtain ⟨d₁, h, hd⟩ := h.exists_takes
      obtain ⟨rank, hs⟩ := ih.mpr hd
      exact ⟨rank, .cons h hs⟩

end Expects

end CallGate.Wasm
