import CallGate.Proofs.Wasm.Confinement
import CallGate.Proofs.Wasm.ImportScan

/-!
# Where a malformed module is wrong

Behind a valid header a scan can fail in two places. The walk over the sections blames an offset of
its window, which begins behind the header and ends with the bytes. The last step, in which imports
get their types, has no window any more. An entry that misfits its type is reported with offset
zero, and that is the offset of a header which has just been found valid.

`importsOf_malformed_offset` says which of the two it is. The offset is behind the header if and
only if the bytes are no module at all.
-/

namespace CallGate.Wasm

open Data

/-- Behind a header, the walk over the sections is all that can go wrong with the declarations. -/
theorem ofBytes_header_eq_error {body : List UInt8} {e : ScanError}
    (h : Declarations.ofBytes (magic ++ (version ++ body)) = .error e) :
    e.IsForeign ∨ e.IsWithin 8 (magic ++ (version ++ body)).length := by
  have hstop : (⟨8, body⟩ : Window).stop = (magic ++ (version ++ body)).length := by
    rw [← List.append_assoc, List.length_append]
    rfl
  rw [ofBytes_header] at h
  rw [← hstop]
  exact addAll_eq_error h

/-- Bytes whose declarations cannot be read are no module. -/
theorem not_isModule_of_ofBytes {bytes : List UInt8} {e : ScanError}
    (h : Declarations.ofBytes bytes = .error e) :
    ¬ ∃ frames groups entries, IsModule bytes frames groups entries := by
  rintro ⟨frames, groups, entries, hmodule⟩
  obtain ⟨rank, hok⟩ := ofBytes_eq_ok_iff_isModule.mpr ⟨frames, hmodule⟩
  rw [h] at hok
  cases hok

/-- **Where a malformed module is wrong.** Behind a valid header, an error about malformed bytes has
an offset between the end of the header and the end of the bytes, provided that the bytes are no
module. If they are one, its offset is zero, and the error is about the first import that does not
resolve, whose type is declared but is none of a function, or none that can be called like a C
function where that was asked for. -/
theorem importsOf_malformed_offset {bytes : List UInt8} (hheader : bytes.take 8 = magic ++ version)
    {requireCAbi : Bool} {offset : ℕ} {fault : Fault}
    (h : importsOf bytes requireCAbi = .error (.malformed offset fault)) :
    ((8 ≤ offset ∧ offset ≤ bytes.length) ∧
        ¬ ∃ frames groups entries, IsModule bytes frames groups entries) ∨
      offset = 0 ∧ ∃ frames groups before e after,
        IsModule bytes frames groups (before ++ e :: after) ∧
        (∀ b ∈ before, ∃ i : Import, b.Resolves groups i ∧
          (requireCAbi = true → i.isCAbi = true)) ∧
        e.Misfits groups requireCAbi fault := by
  rcases importsOf_eq_error.mp h with h | ⟨frames, groups, before, e, after, hmodule, hbefore, he⟩
  · -- The walk over the sections has failed.
    refine .inl ⟨?_, not_isModule_of_ofBytes h⟩
    have hbytes : bytes = magic ++ (version ++ bytes.drop 8) := by
      rw [← List.append_assoc, ← hheader, List.take_append_drop]
    rw [hbytes] at h ⊢
    rcases ofBytes_header_eq_error h with ⟨_, _, _, hforeign⟩ | ⟨_, _, hwithin, hlow, hhigh⟩
    · cases hforeign
    · cases hwithin
      exact ⟨hlow, hhigh⟩
  · rcases resolve_eq_error.mp he with ⟨-, hunresolved⟩ | ⟨fault', hmisfits, hmalformed⟩
    · cases hunresolved
    · cases hmalformed
      exact .inr ⟨rfl, frames, groups, before, e, after, hmodule, hbefore, hmisfits⟩

/-- A section that announces sixteen bytes and has one. -/
theorem importsOf_malformed_offset_large_section :
    let bytes := magic ++ version ++ [0x01, 0x10, 0x00]
    importsOf bytes = .error (.malformed 10 (.sectionTooLarge 16 1)) ∧
      ¬ ∃ frames groups entries, IsModule bytes frames groups entries := by
  intro bytes
  have hheader : bytes.take 8 = magic ++ version := by decide
  have hscan : importsOf bytes = .error (.malformed 10 (.sectionTooLarge 16 1)) := by
    decide +kernel
  rcases importsOf_malformed_offset hheader hscan with ⟨-, hmodule⟩ | ⟨hoffset, -⟩
  · exact ⟨hscan, hmodule⟩
  · cases hoffset

/-- An import that points at a struct type: the bytes behind the header are to blame, the offset is
before them. -/
theorem importsOf_malformed_offset_struct :
    ¬ ∀ (bytes : List UInt8) (requireCAbi : Bool) (offset : ℕ) (fault : Fault),
      bytes.take 8 = magic ++ version →
        importsOf bytes requireCAbi = .error (.malformed offset fault) →
          8 ≤ offset ∧ offset ≤ bytes.length := by
  intro hclaim
  let bytes : List UInt8 := magic ++ version ++
    [0x01, 0x03, 0x01, 0x5F, 0x00, 0x02, 0x07, 0x01, 0x01, 0x61, 0x01, 0x62, 0x00, 0x00]
  have hscan : importsOf bytes false = .error (.malformed 0 (.notFunctionType "a" "b" 0)) := by
    decide +kernel
  have hoffset := hclaim bytes false 0 _ (by decide) hscan
  exact absurd hoffset.1 (by decide)

end CallGate.Wasm
