/-!
# Blank characters

Two classes of blanks are in use. `isWhiteSpace` is the White_Space property of Unicode, and may
stand around a number. `isBlank` adds the four information separators, U+001C to U+001F, which are
separators by their bidirectional type, and may stand around the parts of an action. Zero-width
characters are in neither.
-/

namespace CallGate.Text

/-- The characters with the White_Space property. -/
def isWhiteSpace (c : Char) : Bool :=
  let n := c.toNat
  (0x09 ≤ n && n ≤ 0x0D) || n == 0x20 || n == 0x85 || n == 0xA0 || n == 0x1680 ||
    (0x2000 ≤ n && n ≤ 0x200A) || n == 0x2028 || n == 0x2029 || n == 0x202F || n == 0x205F ||
    n == 0x3000

/-- White space and the information separators. -/
def isBlank (c : Char) : Bool :=
  isWhiteSpace c || (0x1C ≤ c.toNat && c.toNat ≤ 0x1F)

/-- What is left when the characters of a class are taken off both ends. -/
def strip {α : Type} (blank : α → Bool) (cs : List α) : List α :=
  ((cs.dropWhile blank).reverse.dropWhile blank).reverse

end CallGate.Text
