import CallGate.Text.CodePoint
import CallGate.Text.Printable

/-!
# Quoted text

Text is shown between quotes with everything escaped that would not show as itself. The quote is
the apostrophe, unless the text holds an apostrophe and no quotation mark. Inside the quotes the
backslash and the quote itself are escaped, so that neither can be mistaken for an end or an escape.

Halves of surrogate pairs are never printable. Bytes are shown like the characters of their codes,
except that only those of ASCII can be printable, and with a letter in front of the quotes.
-/

namespace CallGate.Text

/-- `width` lower-case hexadecimal digits of a number. -/
def hexDigits : (width n : Nat) → List Char
  | 0, _ => []
  | width + 1, n => hexDigits width (n / 16) ++ [Nat.digitChar (n % 16)]

/-- The escape of a code that is not printable: the shortest of three widths. -/
def escapeCode (code : Nat) : List Char :=
  if code < 0x100 then ['\\', 'x'] ++ hexDigits 2 code
  else if code < 0x10000 then ['\\', 'u'] ++ hexDigits 4 code
  else ['\\', 'U'] ++ hexDigits 8 code

/-- A character inside quotes. -/
def escapeChar (quote c : Char) : List Char :=
  if c = quote ∨ c = '\\' then ['\\', c]
  else if c = '\n' then ['\\', 'n']
  else if c = '\r' then ['\\', 'r']
  else if c = '\t' then ['\\', 't']
  else if isPrintable c then [c]
  else escapeCode c.toNat

/-- A code point inside quotes. -/
def escapePoint (quote : Char) : CodePoint → List Char
  | .char c => escapeChar quote c
  | p => escapeCode p.code

/-- The quote a text is put into. -/
def quoteFor (s : List Char) : Char :=
  if s.contains '\'' && !s.contains '"' then '"' else '\''

/-- Code points between quotes. -/
def quotePoints (ps : List CodePoint) : String :=
  let q := quoteFor (ps.filterMap CodePoint.char?)
  String.ofList ([q] ++ ps.flatMap (escapePoint q) ++ [q])

/-- A text between quotes. -/
def quote (s : String) : String :=
  let q := quoteFor s.toList
  String.ofList ([q] ++ s.toList.flatMap (escapeChar q) ++ [q])

/-- A byte inside quotes. -/
def escapeByte (quote : Char) (b : UInt8) : List Char :=
  if b < 0x7F then escapeChar quote (Char.ofNat b.toNat) else escapeCode b.toNat

/-- Bytes between quotes. -/
def quoteBytes (bs : List UInt8) : String :=
  let q := quoteFor (bs.map fun b ↦ Char.ofNat b.toNat)
  String.ofList (['b', q] ++ bs.flatMap (escapeByte q) ++ [q])

end CallGate.Text
