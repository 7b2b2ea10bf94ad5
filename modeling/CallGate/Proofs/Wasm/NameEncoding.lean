import CallGate.Proofs.Wasm.CursorReading
import CallGate.Proofs.Wasm.Utf8

/-!
# Names and their bytes

An import is refused for its name, so a name must not be able to hide. `name_undisguised` says that
names and the bytes of names are the same thing: a cursor reads a name exactly where a length stands
and behind it that many bytes of UTF-8, the name is the one text that these bytes are, and a list of
names finds the same imports as the list of their bytes.
-/

namespace CallGate.Wasm

open Decoder

namespace ByteCursor

/-- At the position of a cursor stands a length, written as `count`, and behind it `content`, which
has that many bytes and ends before the stop. -/
structure HasName (c : ByteCursor) (count content : List UInt8) : Prop where
  length : Grammar.u32 content.length count
  begins : c.Begins (count ++ content)

variable {c c' : ByteCursor} {count count' content content' : List UInt8} {s : String}

/-- A cursor has one name at most. -/
theorem HasName.unique (h : c.HasName count content) (h' : c.HasName count' content') :
    count = count' ∧ content = content' := by
  obtain ⟨rest, hrest⟩ := h.begins.isPrefix
  obtain ⟨rest', hrest'⟩ := h'.begins.isPrefix
  rw [← hrest', List.append_assoc, List.append_assoc] at hrest
  obtain ⟨hlength, rfl, hbehind⟩ := reads_u32.unique h.length h'.length hrest
  exact ⟨rfl, (List.append_inj hbehind hlength).1⟩

theorem name_eq_ok (hc : c.InBytes) :
    name c = .ok s c' ↔ ∃ count content, c.HasName count content ∧ Grammar.text s content ∧
      c' = c.behind (count ++ content) := by
  rw [hc.reads stopsAtEnd_name mirrors_name reads_name]
  constructor
  · rintro ⟨_, _, rfl, ⟨count, hcount, rfl⟩, hbegins, rfl⟩
    exact ⟨count, Grammar.utf8 s, ⟨hcount, hbegins⟩, Grammar.text_iff.mpr rfl, rfl⟩
  · rintro ⟨count, content, ⟨hcount, hbegins⟩, htext, rfl⟩
    obtain rfl := Grammar.text_iff.mp htext
    exact ⟨s, count ++ Grammar.utf8 s, rfl, ⟨count, hcount, rfl⟩, hbegins, rfl⟩

/-- The text that is read is written where the name stands. -/
theorem HasName.text_of_name (h : c.HasName count content) (hc : c.InBytes)
    (hs : name c = .ok s c') : Grammar.text s content := by
  obtain ⟨count', content', h', htext, -⟩ := (name_eq_ok hc).mp hs
  obtain ⟨-, rfl⟩ := h.unique h'
  exact htext

end ByteCursor

/-- A name is on a list if its bytes are among those of the list. -/
theorem contains_utf8 (names : List String) (s : String) :
    (names.map Grammar.utf8).contains (Grammar.utf8 s) = names.contains s := by
  rw [Bool.eq_iff_iff, List.contains_iff_mem, List.contains_iff_mem, List.mem_map]
  simp only [Grammar.utf8_inj, exists_eq_right]

namespace ByteCursor

variable {c : ByteCursor}

/-- **Names cannot be disguised.** Inside its bytes, a cursor reads a name where a length stands and
behind it that many bytes of UTF-8 that end before the stop; the name is the text written there, and
the cursor moves behind it. Anywhere else it complains of malformed bytes. Two names that are read,
in the same bytes or in others, are the same if and only if their bytes are. So a name that is read
is on a list exactly if one of the list is written with its bytes, and the imports that a list
forbids are those whose bytes are among the bytes of the list. -/
theorem name_undisguised (hc : c.InBytes) :
    (∀ s c', name c = .ok s c' ↔ ∃ count content, c.HasName count content ∧ IsUtf8 content ∧
      Grammar.text s content ∧ c' = c.behind (count ++ content)) ∧
    ((∃ offset fault c', name c = .error (.malformed offset fault) c') ↔
      ¬ ∃ count content, c.HasName count content ∧ IsUtf8 content) ∧
    (∀ d : ByteCursor, d.InBytes → ∀ count content count' content' s t c' d',
      c.HasName count content → d.HasName count' content' → name c = .ok s c' →
        name d = .ok t d' → (s = t ↔ content = content')) ∧
    (∀ (names : List String) count content s c', c.HasName count content → name c = .ok s c' →
      (s ∈ names ↔ ∃ n ∈ names, Grammar.text n content)) ∧
    ∀ names imports, Import.forbidden names imports =
      imports.filter fun i ↦ (names.map Grammar.utf8).contains (Grammar.utf8 i.name) := by
  refine ⟨fun s c' ↦ ?_, ⟨?_, fun hnone ↦ ?_⟩, ?_, ?_, fun names imports ↦ ?_⟩
  · rw [name_eq_ok hc]
    constructor
    · rintro ⟨count, content, hname, htext, rfl⟩
      exact ⟨count, content, hname, isUtf8_iff.mpr ⟨s, htext⟩, htext, rfl⟩
    · rintro ⟨count, content, hname, -, htext, rfl⟩
      exact ⟨count, content, hname, htext, rfl⟩
  · rintro ⟨offset, fault, c', herror⟩ ⟨count, content, hname, hutf8⟩
    -- All UTF-8 is the encoding of some text, so the cursor would have read that one.
    obtain ⟨s, htext⟩ := isUtf8_iff.mp hutf8
    rw [(name_eq_ok hc).mpr ⟨count, content, hname, htext, rfl⟩] at herror
    cases herror
  · rcases hc.ok_or_malformed stopsAtEnd_name mirrors_name with ⟨s, c', hok⟩ | herror
    · obtain ⟨count, content, hname, htext, -⟩ := (name_eq_ok hc).mp hok
      exact absurd ⟨count, content, hname, isUtf8_iff.mpr ⟨s, htext⟩⟩ hnone
    · exact herror
  · intro d hd count content count' content' s t c' d' hname hname' hs ht
    rw [Grammar.text_iff.mp (hname.text_of_name hc hs),
      Grammar.text_iff.mp (hname'.text_of_name hd ht), Grammar.utf8_inj]
  · intro names count content s c' hname hs
    simp only [Grammar.text_iff, Grammar.text_iff.mp (hname.text_of_name hc hs), Grammar.utf8_inj,
      exists_eq_right']
  · simp only [contains_utf8, Import.forbidden]

/-- A character of two bytes behind a padded length is read as a name. A slash that is spread over
two bytes is not. -/
theorem name_undisguised_padded :
    let c : ByteCursor := ⟨[0x82, 0x00, 0xC3, 0xA9, 0x61], 0, 5⟩
    let d : ByteCursor := ⟨[0x02, 0xC0, 0xAF], 0, 3⟩
    (c.InBytes ∧ name c = .ok "é" (c.behind [0x82, 0x00, 0xC3, 0xA9])) ∧
      d.InBytes ∧ ∃ offset fault d', name d = .error (.malformed offset fault) d' := by
  intro c d
  have hc : c.InBytes := ⟨by decide, by decide, by decide⟩
  have hd : d.InBytes := ⟨by decide, by decide, by decide⟩
  refine ⟨⟨hc, ((name_undisguised hc).1 _ _).mpr ?_⟩, hd, (name_undisguised hd).2.1.mpr ?_⟩
  · have hlength : Grammar.u32 2 [0x82, 0x00] :=
      ⟨⟨[0x82], 0x00, rfl, by decide, by simp, by decide⟩, by decide, by decide⟩
    have htext : Grammar.text "é" [0xC3, 0xA9] := Grammar.text_iff.mpr (by decide)
    exact ⟨[0x82, 0x00], [0xC3, 0xA9], ⟨hlength, ⟨[0x61], rfl⟩, by decide⟩,
      isUtf8_iff.mpr ⟨_, htext⟩, htext, rfl⟩
  · rintro ⟨count, content, hname, hutf8⟩
    have hlength : Grammar.u32 2 [0x02] :=
      ⟨⟨[], 0x02, rfl, by decide, nofun, by decide⟩, rfl, by decide⟩
    have hspread : d.HasName [0x02] [0xC0, 0xAF] := ⟨hlength, ⟨[], rfl⟩, by decide⟩
    obtain ⟨-, rfl⟩ := hname.unique hspread
    exact absurd hutf8.first_lt (by decide)

end ByteCursor

end CallGate.Wasm
