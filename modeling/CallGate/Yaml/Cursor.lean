import CallGate.Data.Moment
import CallGate.Data.Value

/-!
# Characters and places of a document

A document is read as a list of characters in which every line break has become a single character.
Where a character stands matters: structure is told by the column, and whether something can be a
key by its line and its distance. A `Cursor` is a place in a document together with what follows.

Reading can fail in two ways. Nearly everything that can be wrong with a document makes it
`malformed`, and no more is said. An escape without a character, and a scalar that should be a
number, a date or a truth value without being one, fail with a message of their own. Such messages
show texts between quotes.
-/

namespace CallGate.Yaml

open CallGate.Data

/-- Why a document has no value. -/
inductive Fault where
  /-- The text is no document, or not just one. -/
  | malformed
  /-- An escape stands for a number that is no character. -/
  | noCharacter
  /-- An escape stands for a number of more than 31 bits. -/
  | escapeTooLarge
  /-- No word for a truth value. -/
  | bool (shown : String)
  | integer (fault : IntegerFault)
  /-- A number without anything behind its sign, if it has one. -/
  | emptyNumber
  | real (shown : String)
  /-- A place of a number in base sixty is worth more than the greatest double. -/
  | realTooLarge
  | moment (fault : MomentFault)
  | noMoment
  /-- A date was asked for where there is a mapping. -/
  | mappingMoment
deriving DecidableEq, Repr

/-- The message of a fault. -/
def Fault.text : Fault → String
  | malformed => "malformed document"
  | noCharacter => "chr() arg not in range(0x110000)"
  | escapeTooLarge => "Python int too large to convert to C int"
  | bool shown => shown
  | integer fault => fault.text
  | emptyNumber => "string index out of range"
  | real shown => s!"could not convert string to float: {shown}"
  | realTooLarge => "int too large to convert to float"
  | moment fault => fault.text
  | noMoment => "'NoneType' object has no attribute 'groupdict'"
  | mappingMoment => "expected string or bytes-like object, got 'list'"

/-! ## Characters -/

/-- The characters that end a line once breaks are single characters. -/
def isBreak (c : Char) : Bool := c == '\n' || c == '\u2028' || c == '\u2029'

/-- A space, a tab, a break, or the end of the text: what separates words. -/
def isGapAt (next : Option Char) : Bool :=
  next.all fun c ↦ c == ' ' || c == '\t' || isBreak c

/-- The same without the tab. -/
def isSpaceAt (next : Option Char) : Bool := next.all fun c ↦ c == ' ' || isBreak c

/-- Whether a character may occur in a document. -/
def isAllowed (c : Char) : Bool :=
  let n := c.toNat
  n == 0x09 || n == 0x0A || n == 0x0D || (0x20 ≤ n && n ≤ 0x7E) || n == 0x85 ||
    (0xA0 ≤ n && n ≤ 0xD7FF) || (0xE000 ≤ n && n ≤ 0xFFFD) || 0x10000 ≤ n

/-- Make every line break a single character. The two separators of Unicode stay what they are. -/
def singleBreaks : List Char → List Char
  | [] => []
  | '\r' :: '\n' :: cs => '\n' :: singleBreaks cs
  | c :: cs => (if c = '\r' ∨ c = '\u0085' then '\n' else c) :: singleBreaks cs

/-- Whether a line that begins here separates documents. -/
def isSeparator (mark : Char) : List Char → Bool
  | a :: b :: c :: rest => a == mark && b == mark && c == mark && isGapAt rest.head?
  | _ => false

/-- Whether a line that begins here starts or ends a document. -/
def isDocumentMark (cs : List Char) : Bool := isSeparator '-' cs || isSeparator '.' cs

/-- The characters of the names of anchors, tags and directives. -/
def isNameChar (c : Char) : Bool := c.isAlphanum || c == '-' || c == '_'

/-! ## Cursors -/

/-- A place in a document, and the characters from there on. -/
structure Cursor where
  index : Nat := 0
  line : Nat := 0
  column : Nat := 0
  rest : List Char
deriving DecidableEq, Repr

namespace Cursor

def peek? (c : Cursor) : Option Char := c.rest.head?

/-- The character behind the next one. -/
def second? (c : Cursor) : Option Char := c.rest.tail.head?

/-- Go past some characters. A byte order mark has no width. -/
def skip : (count : Nat) → Cursor → Cursor
  | 0, c => c
  | count + 1, c =>
    match c.rest with
    | [] => c
    | ch :: rest =>
      skip count <|
        if isBreak ch then ⟨c.index + 1, c.line + 1, 0, rest⟩
        else ⟨c.index + 1, c.line, if ch = '\ufeff' then c.column else c.column + 1, rest⟩

/-- Go to where `rest` is what follows; `rest` has to be an end of what follows now. -/
def skipTo (c : Cursor) (rest : List Char) : Cursor := c.skip (c.rest.length - rest.length)

/-- The start of a document. A byte order mark in front of it is passed over. -/
def start (cs : List Char) : Cursor :=
  match singleBreaks cs with
  | '\ufeff' :: rest => { rest }
  | rest => { rest }

end Cursor

end CallGate.Yaml
