import CallGate.Data.Position
import CallGate.Wasm.Decoder

/-!
# Byte cursors

A cursor reads some bytes from a position up to a stop, both of which anybody may set. A window is
what it comes to when both lie inside the bytes and in order; a cursor answers beyond that as well.
Positions in front of the bytes count from their end, a run of bytes is cut to what there is, and
a single byte that is not there is a fault of its own, apart from the fault of going past the stop.

Sizes may be negative and then move the cursor back.
-/

namespace CallGate.Wasm

open CallGate.Data

/-- Some bytes, the position of the next one, and the position one past the last one that may be
read. -/
structure ByteCursor where
  data : List UInt8
  pos : Int
  stop : Int
deriving DecidableEq, Repr

/-- Why a cursor could not read. -/
inductive CursorError where
  /-- The bytes at an offset are malformed. -/
  | malformed (offset : Int) (fault : Fault)
  /-- There is no byte at a position before the stop. -/
  | position (fault : PositionFault)
deriving DecidableEq, Repr

/-- A step of a cursor. The cursor stays where it got to also when the step fails. -/
abbrev CursorStep := EStateM CursorError ByteCursor

namespace ByteCursor

variable {α : Type}

/-- The number of bytes up to the stop, which is negative beyond it. -/
def remaining (c : ByteCursor) : Int := c.stop - c.pos

def isAtEnd (c : ByteCursor) : Bool := c.stop ≤ c.pos

/-- The bytes between two positions, as far as they are there. -/
def slice (data : List UInt8) (start stop : Int) : List UInt8 :=
  let clamp (position : Int) : Nat :=
    (if position < 0 then position + data.length else position).toNat
  (data.take (clamp stop)).drop (clamp start)

/-- Stop because of what stands here. -/
def failHere (fault : Fault) : CursorStep α := fun c ↦ .error (.malformed c.pos fault) c

/-- The next byte, which stays unread. -/
def peek : CursorStep UInt8 := fun c ↦
  if c.isAtEnd then failHere .endOfData c
  else
    match itemAt c.data c.pos with
    | .ok b => .ok b c
    | .error fault => .error (.position fault) c

/-- Move by some bytes. -/
def skip (count : Int) : CursorStep Unit := modify fun c ↦ { c with pos := c.pos + count }

/-- The next byte. -/
def byte : CursorStep UInt8 := do
  let b ← peek
  skip 1
  return b

/-- The next `count` bytes. -/
def bytes (count : Int) : CursorStep (List UInt8) := do
  let c ← get
  if c.remaining < count then failHere (.tooFewBytes count c.remaining)
  else
    skip count
    return slice c.data c.pos (c.pos + count)

/-- The next `size` bytes as a cursor of their own, which is skipped here. -/
def part (size : Int) : CursorStep ByteCursor := do
  let c ← get
  if c.remaining < size then failHere (.sectionTooLarge size c.remaining)
  else
    skip size
    return { c with stop := c.pos + size }

/-- Nothing, provided that nothing is left; `place` names the cursor in the complaint. -/
def expectEnd (place : String) : CursorStep Unit := do
  let c ← get
  if c.isAtEnd then return () else failHere (.trailingBytes c.remaining place)

/-- The bytes of one LEB128 integer, at most `left` of them; `start` is where the integer began. -/
def sevenBitGroups (start : Int) : (left : Nat) → CursorStep (List UInt8)
  | 0 => throw (.malformed start .integerTooLong)
  | left + 1 => do
    let b ← byte
    if b < 0x80 then return [b] else return b :: (← sevenBitGroups start left)

/-- A LEB128 integer, read by `value` and between two bounds. -/
def integer (value : List UInt8 → Int) (least most : Int) : CursorStep Int := do
  let c ← get
  let groups ← sevenBitGroups c.pos 5
  if least ≤ value groups ∧ value groups ≤ most then return value groups
  else throw (.malformed c.pos .integerTooLarge)

/-- An unsigned 32-bit integer. -/
def u32 : CursorStep Int := integer (Decoder.unsigned ·) 0 0xFFFFFFFF

/-- A signed 33-bit integer. -/
def s33 : CursorStep Int := integer Decoder.signed (-0x100000000) 0xFFFFFFFF

/-- A name: its length in bytes, then that many bytes of UTF-8. -/
def name : CursorStep String := do
  let length ← u32
  let c ← get
  let content ← bytes length
  match String.fromUTF8? content.toByteArray with
  | some text => return text
  | none => throw (.malformed c.pos .malformedUtf8)

end ByteCursor

end CallGate.Wasm
