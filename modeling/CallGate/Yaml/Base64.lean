import CallGate.Yaml.Cursor

/-!
# Bytes in base 64

Bytes are written in a document four characters for three of them, with equals signs in the places
that are not needed at the end. Characters outside the alphabet are passed over, and so are equals
signs in places where nothing can end. The first signs that can end the bytes do so, whatever comes
after them.
-/

namespace CallGate.Yaml

/-- The value of a character in base 64. -/
def sixBits? (c : Char) : Option Nat :=
  if 'A' ≤ c ∧ c ≤ 'Z' then some (c.toNat - 'A'.toNat)
  else if 'a' ≤ c ∧ c ≤ 'z' then some (c.toNat - 'a'.toNat + 26)
  else if '0' ≤ c ∧ c ≤ '9' then some (c.toNat - '0'.toNat + 52)
  else if c = '+' then some 62
  else if c = '/' then some 63
  else none

/-- The bytes from some place on. `place` is the number of characters of the current four that were
read, `bits` what they left over, and `pads` the number of equals signs directly before. -/
def base64From (place bits pads : Nat) : List Char → Except Fault (List UInt8)
  | [] => if place = 0 then .ok [] else .error .malformed
  | c :: cs =>
    if c = '=' then
      if place < 2 then base64From place bits pads cs
      else if 4 ≤ place + pads + 1 then .ok []
      else base64From place bits (pads + 1) cs
    else
      match sixBits? c, place with
      | none, _ => base64From place bits pads cs
      | some n, 0 => base64From 1 n 0 cs
      | some n, 1 => (UInt8.ofNat (bits * 4 + n / 16) :: ·) <$> base64From 2 (n % 16) 0 cs
      | some n, 2 => (UInt8.ofNat (bits * 16 + n / 4) :: ·) <$> base64From 3 (n % 4) 0 cs
      | some n, _ => (UInt8.ofNat (bits * 64 + n) :: ·) <$> base64From 0 0 0 cs

/-- The bytes that a text in ASCII stands for. -/
def base64 (cs : List Char) : Except Fault (List UInt8) :=
  if cs.all fun c ↦ c.toNat < 0x80 then base64From 0 0 0 cs else .error .malformed

end CallGate.Yaml
