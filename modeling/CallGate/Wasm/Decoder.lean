import CallGate.Wasm.Fault

/-!
# Reading the bytes of a module

A decoder works on a `Window`: the bytes that may still be read, together with the absolute offset
of the first of them. A section becomes a window of its own, so what lies behind its end is not
merely forbidden to its decoders, they never see it. The offset is there for errors alone; no
decoder's value depends on it.

Decoders are state transformers that keep the state also when they fail, since where reading
stopped is part of the answer. The measure that makes every loop over a module end is the number of
bytes left: `Consumes n d` says that `d` never succeeds without having used `n` of them.

## Integers

Both kinds of integer are LEB128: groups of seven bits, lowest first, a set top bit meaning that
another group follows, at most five groups. `sevenBitGroups` finds the groups, `unsigned` and
`signed` say what they stand for, and `u32` and `s33` add the range of the type. Padding with
superfluous groups is allowed, as the format has it.
-/

namespace CallGate.Wasm

/-- The bytes that may still be read, and the absolute offset of the first of them. -/
structure Window where
  offset : Nat
  bytes : List UInt8
deriving DecidableEq, Repr

/-- The whole of some bytes. -/
def Window.ofBytes (bytes : List UInt8) : Window := ⟨0, bytes⟩

/-- The absolute offset one past the last byte. -/
def Window.stop (w : Window) : Nat := w.offset + w.bytes.length

/-- A reader of values from a window. -/
abbrev Decoder := EStateM ScanError Window

namespace Decoder

variable {α β : Type}

/-! ## Single steps -/

/-- Stop because of what stands at an offset seen earlier. -/
def failAt (offset : Nat) (fault : Fault) : Decoder α :=
  throw (.malformed offset fault)

/-- Stop because of what stands here. -/
def failHere (fault : Fault) : Decoder α := fun w ↦
  .error (.malformed w.offset fault) w

/-- The absolute offset of the next byte. -/
def position : Decoder Nat := fun w ↦ .ok w.offset w

/-- The next byte. -/
def byte : Decoder UInt8 := fun w ↦
  match w.bytes with
  | [] => failHere .endOfData w
  | b :: rest => .ok b ⟨w.offset + 1, rest⟩

/-- The next byte, which stays unread. -/
def peek : Decoder UInt8 := fun w ↦
  match w.bytes with
  | [] => failHere .endOfData w
  | b :: _ => .ok b w

/-- The next `count` bytes. -/
def bytes (count : Nat) : Decoder (List UInt8) := fun w ↦
  if w.bytes.length < count then failHere (.tooFewBytes count w.bytes.length) w
  else .ok (w.bytes.take count) ⟨w.offset + count, w.bytes.drop count⟩

/-- The next `size` bytes as a window of their own, which is skipped here. -/
def window (size : Nat) : Decoder Window := fun w ↦
  if w.bytes.length < size then failHere (.sectionTooLarge size w.bytes.length) w
  else .ok ⟨w.offset, w.bytes.take size⟩ ⟨w.offset + size, w.bytes.drop size⟩

/-- Nothing, provided that nothing is left; `place` names the window in the complaint. -/
def expectEnd (place : String) : Decoder Unit := fun w ↦
  if w.bytes.isEmpty then .ok () w else failHere (.trailingBytes w.bytes.length place) w

/-! ## Integers and names -/

/-- The bytes of one LEB128 integer, at most `left` of them; `start` is where the integer began. -/
def sevenBitGroups (start : Nat) : (left : Nat) → Decoder (List UInt8)
  | 0 => failAt start .integerTooLong
  | left + 1 => do
    let b ← byte
    if b < 0x80 then
      return [b]
    else
      return b :: (← sevenBitGroups start left)

/-- The number that groups of seven bits stand for, lowest group first. -/
def unsigned : List UInt8 → Nat
  | [] => 0
  | b :: groups => b.toNat % 128 + 128 * unsigned groups

/-- The same number with bit 6 of the last group as its sign. -/
def signed (groups : List UInt8) : Int :=
  if (groups.getLastD 0).toNat % 128 < 64 then unsigned groups
  else (unsigned groups : Int) - Nat.pow 128 groups.length

/-- An unsigned 32-bit integer. -/
def u32 : Decoder Nat := do
  let start ← position
  let groups ← sevenBitGroups start 5
  if unsigned groups < 0x100000000 then return unsigned groups else failAt start .integerTooLarge

/-- A signed 33-bit integer. -/
def s33 : Decoder Int := do
  let start ← position
  let groups ← sevenBitGroups start 5
  if -0x100000000 ≤ signed groups ∧ signed groups < 0x100000000 then return signed groups
  else failAt start .integerTooLarge

/-- A name: its length in bytes, then that many bytes of UTF-8. -/
def name : Decoder String := do
  let length ← u32
  let start ← position
  let content ← bytes length
  match String.fromUTF8? content.toByteArray with
  | some text => return text
  | none => failAt start .malformedUtf8

/-! ## Repetition and nesting -/

/-- `count` items one after the other. The loop is bounded by the bytes and not by the count: an
item that uses at least one byte fails when they run out, however large the count. -/
def repeated (item : Decoder α) : (count : Nat) → Decoder (List α)
  | 0 => return []
  | count + 1 => do
    let first ← item
    return first :: (← repeated item count)

/-- A vector: a count and as many items. -/
def vector (item : Decoder α) : Decoder (List α) := do
  repeated item (← u32)

/-- Run a decoder on a window of its own; the window in hand stays as it is. -/
def within (inner : Window) (d : Decoder α) : Decoder α := fun w ↦
  match d inner with
  | .ok a _ => .ok a w
  | .error e _ => .error e w

/-- The value a decoder finds at the start of a window, or why there is none. -/
def value (d : Decoder α) (w : Window) : Except ScanError α :=
  match d w with
  | .ok a _ => .ok a
  | .error e _ => .error e

/-! ## Progress -/

/-- Whenever `d` succeeds, it has used at least `n` bytes. -/
def Consumes (n : Nat) (d : Decoder α) : Prop :=
  ∀ ⦃w w' : Window⦄ ⦃a : α⦄, d w = .ok a w' → w'.bytes.length + n ≤ w.bytes.length

theorem Consumes.mono {m n : Nat} {d : Decoder α} (h : Consumes n d) (hm : m ≤ n) :
    Consumes m d := fun _ _ _ e ↦ by have := h e; omega

theorem consumes_pure (a : α) : Consumes 0 (pure a : Decoder α) := by
  intro w w' b h
  cases h
  exact Nat.le_refl _

theorem Consumes.bind {m n : Nat} {d : Decoder α} {f : α → Decoder β} (hd : Consumes m d)
    (hf : ∀ a, Consumes n (f a)) : Consumes (m + n) (d >>= f) := by
  intro w w'' b h
  change EStateM.bind d f w = _ at h
  unfold EStateM.bind at h
  split at h
  · next a w' hdw =>
    have h₁ := hd hdw
    have h₂ := hf a h
    omega
  · cases h

theorem consumes_failAt (n offset : Nat) (fault : Fault) :
    Consumes n (failAt offset fault : Decoder α) := by
  intro w w' a h
  cases h

theorem consumes_position : Consumes 0 position := by
  intro w w' a h
  cases h
  exact Nat.le_refl _

theorem consumes_byte : Consumes 1 byte := by
  intro w w' a h
  unfold byte at h
  split at h
  · cases h
  · next hw =>
    cases h
    simp [hw]

theorem consumes_bytes (count : Nat) : Consumes count (bytes count) := by
  intro w w' a h
  unfold bytes at h
  split at h
  · cases h
  · cases h
    simp only [List.length_drop]
    omega

theorem consumes_window (size : Nat) : Consumes size (window size) := by
  intro w w' a h
  unfold window at h
  split at h
  · cases h
  · cases h
    simp only [List.length_drop]
    omega

theorem consumes_sevenBitGroups (start left : Nat) :
    Consumes 1 (sevenBitGroups start left) := by
  induction left with
  | zero => exact consumes_failAt 1 start _
  | succ left ih =>
    refine consumes_byte.bind (n := 0) fun b ↦ ?_
    split
    · exact consumes_pure _
    · exact (ih.bind (n := 0) fun _ ↦ consumes_pure _).mono (Nat.zero_le _)

theorem consumes_u32 : Consumes 1 u32 := by
  refine consumes_position.bind (n := 1) fun start ↦ ?_
  refine (consumes_sevenBitGroups start 5).bind (n := 0) fun groups ↦ ?_
  split
  · exact consumes_pure _
  · exact consumes_failAt 0 _ _

end Decoder

end CallGate.Wasm
