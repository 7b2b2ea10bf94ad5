import CallGate.Policy.Screening
import CallGate.Proofs.Policy.FatalNames
import CallGate.Proofs.Wasm.ImportScan

/-!
# Screening is on the safe side

A module is screened before it is loaded, by names only, and what it imports is decided about once
it runs. Screening must not let through what would be killed on every call. That it does not rests
on three things, each of which has a module of its own: no import is lost on the way from the bytes
(`Wasm.importsOf_eq_ok`), the imports that are found forbidden are those on the list of fatal calls,
and a call on the list is killed however it comes (`kill_mem_of_mem_fatalNames`).

The last part of the main theorem is about bytes that need not be a module: where an import section
holds an entry with a name on the list, what comes behind it may be anything, and either the scan
fails or the module is rejected.
-/

namespace CallGate.Wasm

/-- The entry that an import was made from. -/
def Import.entry (i : Import) : ImportEntry := ⟨i.module, i.name, i.typeIndex⟩

theorem ImportEntry.Resolves.entry_eq {groups : List RecGroup} {e : ImportEntry} {i : Import}
    (h : e.Resolves groups i) : i.entry = e := by
  rw [Import.entry, h.module, h.name, h.typeIndex]

/-- Imports are made from the entries of a module, in order and each from one of its own. -/
theorem isModule_iff_of_importsOf {bytes : List UInt8} {imports : List Import}
    (h : importsOf bytes = .ok imports) (entries : List ImportEntry) :
    (∃ frames groups, IsModule bytes frames groups entries) ↔
      entries = imports.map Import.entry := by
  obtain ⟨frames, groups, entries', hmodule, hresolves⟩ := importsOf_eq_ok.mp h
  have hentries : imports.map Import.entry = entries' := by
    clear hmodule h
    induction hresolves with
    | nil => rfl
    | cons hi _ ih => rw [List.map_cons, hi.1.entry_eq, ih]
  rw [hentries]
  constructor
  · rintro ⟨frames', groups', hmodule'⟩
    exact (hmodule'.unique hmodule).2.2
  · rintro rfl
    exact ⟨frames, groups, hmodule⟩

end CallGate.Wasm

namespace CallGate.Policy

open CallGate.Data

theorem screen_eq_ok {p : Policy} {bytes : List UInt8} {s : Screening} :
    p.screen bytes = .ok s ↔
      Wasm.importsOf bytes = .ok s.imports ∧
        s.forbidden = s.imports.filter fun i ↦ i.name ∈ p.fatalNames := by
  obtain ⟨imports, forbidden⟩ := s
  simp only [screen, Data.bind_eq_ok, Data.pure_eq_ok, Wasm.Import.forbidden,
    List.contains_eq_mem, Screening.mk.injEq]
  constructor
  · rintro ⟨_, hscan, rfl, rfl⟩
    exact ⟨hscan, rfl⟩
  · rintro ⟨hscan, rfl⟩
    exact ⟨imports, hscan, rfl, rfl⟩

theorem Screening.isRejected_iff {s : Screening} : s.isRejected = true ↔ s.forbidden ≠ [] := by
  rw [isRejected, Bool.not_eq_true', List.isEmpty_eq_false_iff]

/-- Where the bytes hold an entry with a name on the list, the module is not let through. -/
theorem isRejected_of_holdsEntry {p : Policy} {bytes : List UInt8} {e : Wasm.ImportEntry}
    (he : Wasm.HoldsEntry e bytes) (hname : e.name ∈ p.fatalNames) {s : Screening}
    (hs : p.screen bytes = .ok s) : s.isRejected = true := by
  obtain ⟨hscan, hforbidden⟩ := screen_eq_ok.mp hs
  obtain ⟨frames, groups, hmodule⟩ := (Wasm.isModule_iff_of_importsOf hscan _).mpr rfl
  obtain ⟨i, hi, rfl⟩ := List.mem_map.mp (hmodule.holdsEntry_iff.mp he)
  have hmem : i ∈ s.forbidden := by
    rw [hforbidden]
    exact List.mem_filter.mpr ⟨hi, decide_eq_true hname⟩
  exact Screening.isRejected_iff.mpr (List.ne_nil_of_mem hmem)

/-- **Screening is fail-closed and agrees with evaluation.** If a module is screened, all entries of
its import section are listed, in order; the forbidden ones are those with a name on the list of
fatal calls, and the module is rejected if there are any; and a call of a forbidden one is answered
with `kill` whenever it is evaluated. Bytes that hold an entry with a name on the list are not let
through, whatever else they hold. -/
theorem screen_failClosed (p : Policy) (bytes : List UInt8) :
    (∀ s, p.screen bytes = .ok s →
      (∀ entries, (∃ frames groups, Wasm.IsModule bytes frames groups entries) ↔
        entries = s.imports.map Wasm.Import.entry) ∧
      s.forbidden = s.imports.filter (fun i ↦ i.name ∈ p.fatalNames) ∧
      (s.isRejected = true ↔ s.forbidden ≠ []) ∧
      ∀ i ∈ s.forbidden, ∀ args actions,
        (p.evaluate i.name args).outcome = .ok actions → .kill ∈ actions) ∧
    ∀ e, Wasm.HoldsEntry e bytes → e.name ∈ p.fatalNames →
      (∃ s, p.screen bytes = .ok s ∧ s.isRejected = true) ∨
        ∃ fault, p.screen bytes = .error fault := by
  constructor
  · intro s hs
    obtain ⟨hscan, hforbidden⟩ := screen_eq_ok.mp hs
    refine ⟨Wasm.isModule_iff_of_importsOf hscan, hforbidden, Screening.isRejected_iff, ?_⟩
    intro i hi args actions hrun
    rw [hforbidden, List.mem_filter] at hi
    exact kill_mem_of_mem_fatalNames (of_decide_eq_true hi.2) hrun
  · intro e he hname
    cases hs : p.screen bytes with
    | ok s => exact .inl ⟨s, rfl, isRejected_of_holdsEntry he hname hs⟩
    | error fault => exact .inr ⟨fault, rfl⟩

/-- A module that asks for one call, behind a policy that has nothing to say about it but `kill`. -/
theorem screen_failClosed_one_import :
    let registry : Abi.Registry := ⟨[⟨"exit", []⟩], true, by decide⟩
    let p : Policy := ⟨.kill, .empty, registry, nofun⟩
    let bytes : List UInt8 := [0x00, 0x61, 0x73, 0x6D, 0x01, 0x00, 0x00, 0x00,
      0x01, 0x04, 0x01, 0x60, 0x00, 0x00,
      0x02, 0x0C, 0x01, 0x03, 0x65, 0x6E, 0x76, 0x04, 0x65, 0x78, 0x69, 0x74, 0x00, 0x00]
    ∃ s, p.screen bytes = .ok s ∧ s.forbidden ≠ [] ∧
      (∀ i ∈ s.forbidden, ∀ args actions,
        (p.evaluate i.name args).outcome = .ok actions → .kill ∈ actions) ∧
      Wasm.HoldsEntry ⟨"env", "exit", 0⟩ bytes ∧ s.isRejected = true := by
  intro registry p bytes
  have hentries : (p.screen bytes).toOption.map (·.imports.map Wasm.Import.entry) =
      some [⟨"env", "exit", 0⟩] := by decide +kernel
  have hname : "exit" ∈ p.fatalNames := by decide
  cases hs : p.screen bytes with
  | error fault =>
    rw [hs] at hentries
    cases hentries
  | ok s =>
    obtain ⟨hmodule, -, hrejected, hkill⟩ := (screen_failClosed p bytes).1 s hs
    obtain ⟨frames, groups, hmodule⟩ := (hmodule _).mpr rfl
    have hholds : Wasm.HoldsEntry ⟨"env", "exit", 0⟩ bytes := by
      rw [hs] at hentries
      have hone : s.imports.map Wasm.Import.entry = [⟨"env", "exit", 0⟩] := Option.some.inj hentries
      rw [hmodule.holdsEntry_iff, hone]
      exact List.mem_singleton_self _
    rcases (screen_failClosed p bytes).2 _ hholds hname with ⟨s', hs', h⟩ | ⟨fault, hfault⟩
    · obtain rfl : s' = s := Except.ok.inj (hs'.symm.trans hs)
      exact ⟨s', rfl, hrejected.mp h, hkill, hholds, h⟩
    · rw [hs] at hfault
      cases hfault

end CallGate.Policy
