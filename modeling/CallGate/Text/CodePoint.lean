/-!
# Code points

A text from outside need not consist of characters: an escape can name one half of a surrogate pair,
which has a code and is no character. Two halves that follow each other stay two halves. Text of
that kind is a list of code points; nearly every text is made of characters alone, and `chars?`
finds them.
-/

namespace CallGate.Text

/-- A character, or one half of a surrogate pair. -/
inductive CodePoint where
  | char (c : Char)
  /-- The half that comes `place` after the first one. -/
  | surrogate (place : Fin 0x800)
deriving DecidableEq, Repr

namespace CodePoint

/-- The code of the first half of a surrogate pair. -/
def firstSurrogate : Nat := 0xD800

/-- The number of a code point. -/
def code : CodePoint → Nat
  | char c => c.toNat
  | surrogate place => firstSurrogate + place

/-- The code point of a number, if there is one. -/
def ofCode? (code : Nat) : Option CodePoint :=
  if h : code.isValidChar then some (char (Char.ofNatAux code h))
  else if code < firstSurrogate then none
  else if h : code - firstSurrogate < 0x800 then some (surrogate ⟨code - firstSurrogate, h⟩)
  else none

def char? : CodePoint → Option Char
  | char c => some c
  | surrogate _ => none

/-- The character itself, or the replacement character for one half of a pair. -/
def shown : CodePoint → Char
  | char c => c
  | surrogate _ => '\ufffd'

/-- The characters that some code points are, unless a half of a pair is among them. -/
def chars? (ps : List CodePoint) : Option (List Char) := ps.mapM char?

/-- Code points in the order of their numbers. -/
def compare (p q : CodePoint) : Ordering := Ord.compare p.code q.code

example : ofCode? 0x41 = some (char 'A') ∧ ofCode? 0xDFFF = some (surrogate 0x7FF) ∧
    ofCode? 0x110000 = none := by decide

end CodePoint

/-- The code points of a text. -/
def codePoints (s : String) : List CodePoint := s.toList.map .char

end CallGate.Text
