import CallGate.Yaml.Block
import CallGate.Yaml.Plain
import CallGate.Yaml.Token

/-!
# Finding the tokens of a document

Two things make this more than cutting a text into pieces. The indentation opens and closes
collections, for which the columns of the open ones are kept. And that something is a key shows only
when a colon follows it, so that the token which announces the key has to be put in front of tokens
that are there already; the place for it is remembered as a `Candidate`, one for each level of
brackets. A key that can be told only by its colon has to stand on one line and must not be longer
than 1024 characters.

Tokens are found on demand, since a fault of the document is met only by those who read that far.
`Lexer` is the state between two tokens: what is left of the text, and a queue of the tokens that
were found and not yet taken. The first of them is certain as soon as no candidate stands in front
of it; `Lexer.fill` goes on until that is so. Every round uses up at least one character, so that
the length of the text bounds their number.
-/

namespace CallGate.Yaml

open CallGate.Data CallGate.Text

/-- Something that may turn out to be a key: the number of tokens in front of it in the document,
and where it stands. A required candidate has to become one. -/
structure Candidate where
  position : Nat
  isRequired : Bool
  index : Nat
  line : Nat
  column : Nat
deriving DecidableEq, Repr

/-- What is known between two tokens. -/
structure Lexer where
  cursor : Cursor
  /-- The tokens that were found and not yet taken. -/
  queue : List Token := []
  /-- The number of tokens that were taken. -/
  taken : Nat := 0
  /-- Whether all tokens were found. -/
  isDone : Bool := false
  /-- The columns of the open block collections, the innermost one first. -/
  indents : List Nat := []
  /-- The candidate of the innermost level of brackets. -/
  candidate : Option Candidate := none
  /-- The candidates of the outer levels, the nearest one first. -/
  outer : List (Option Candidate) := []
  /-- Whether a key may begin here. -/
  allowsKey : Bool := true
deriving DecidableEq, Repr

namespace Lexer

/-- Whether the place is inside brackets. -/
def inFlow (s : Lexer) : Bool := !s.outer.isEmpty

def push (s : Lexer) (t : Token) : Lexer := { s with queue := s.queue ++ [t] }

/-- The number of tokens that were found. -/
def found (s : Lexer) : Nat := s.taken + s.queue.length

/-- Put a token where there are `position` tokens in front of it. -/
def insertAt (s : Lexer) (position : Nat) (t : Token) : Lexer :=
  { s with queue := s.queue.insertIdx (position - s.taken) t }

/-- Go on behind some characters. -/
def skip (s : Lexer) (count : Nat) : Lexer := { s with cursor := s.cursor.skip count }

def skipTo (s : Lexer) (rest : List Char) : Lexer := { s with cursor := s.cursor.skipTo rest }

/-- What follows the spaces, the breaks and the comments, and whether there was a break. -/
def afterBlanks (inComment broken : Bool) : List Char → List Char × Bool
  | [] => ([], broken)
  | c :: cs =>
    if isBreak c then afterBlanks false true cs
    else if inComment || c == ' ' then afterBlanks inComment broken cs
    else if c = '#' then afterBlanks true broken cs
    else (c :: cs, broken)

/-- Go to the next token. A key may begin on every new line. -/
def skipBlanks (s : Lexer) : Lexer :=
  let (rest, broken) := afterBlanks false false s.cursor.rest
  { s.skipTo rest with allowsKey := s.allowsKey || (broken && !s.inFlow) }

/-! ## Candidates -/

/-- Whether a candidate can no longer become a key. -/
def isStale (s : Lexer) (c : Candidate) : Bool :=
  c.line != s.cursor.line || c.index + 1024 < s.cursor.index

/-- A candidate without those that cannot become a key any more. -/
def freshen (s : Lexer) : Option Candidate → Except Fault (Option Candidate)
  | none => .ok none
  | some c =>
    if !s.isStale c then .ok (some c) else if c.isRequired then .error .malformed else .ok none

def dropStale (s : Lexer) : Except Fault Lexer := do
  let candidate ← s.freshen s.candidate
  return { s with candidate, outer := ← s.outer.mapM s.freshen }

/-- Give up the candidate of this level. -/
def dropCandidate (s : Lexer) : Except Fault Lexer :=
  if s.candidate.any Candidate.isRequired then .error .malformed
  else .ok { s with candidate := none }

/-- What comes next may be a key. -/
def markCandidate (s : Lexer) : Except Fault Lexer := do
  if !s.allowsKey then return s
  let s ← s.dropCandidate
  let isRequired := !s.inFlow && s.indents.head? == some s.cursor.column
  let c := s.cursor
  return { s with candidate := some ⟨s.found, isRequired, c.index, c.line, c.column⟩ }

/-! ## Indentation -/

/-- Close the collections that are indented more than what follows, which is nothing if `column` is
none. Brackets keep all of them open. -/
def unwind (s : Lexer) (column : Option Nat) : Lexer :=
  if s.inFlow then s
  else
    let closed := s.indents.takeWhile fun n ↦ column.all (· < n)
    { s with
      indents := s.indents.drop closed.length
      queue := s.queue ++ closed.map fun _ ↦ .blockEnd }

/-- Open a collection at a column, unless the innermost one is there already; the token goes where
`position` says. -/
def openAt (s : Lexer) (column position : Nat) (t : Token) : Lexer :=
  if s.indents.head?.all (· < column) then
    { s.insertAt position t with indents := column :: s.indents }
  else s

/-! ## Indicators -/

/-- A directive, a document mark or the end of the text: it ends everything that is open. -/
def topLevel (s : Lexer) : Except Fault Lexer := do
  let s ← (s.unwind none).dropCandidate
  return { s with allowsKey := false }

/-- An opening bracket. -/
def openFlow (s : Lexer) (t : Token) : Except Fault Lexer := do
  let s ← s.markCandidate
  let s := (s.push t).skip 1
  return { s with candidate := none, outer := s.candidate :: s.outer, allowsKey := true }

/-- A closing bracket. -/
def closeFlow (s : Lexer) (t : Token) : Except Fault Lexer := do
  let s ← s.dropCandidate
  match s.outer with
  | [] => throw .malformed
  | candidate :: outer =>
    return { (s.push t).skip 1 with candidate, outer, allowsKey := false }

def comma (s : Lexer) : Except Fault Lexer := do
  let s ← s.dropCandidate
  return { (s.push .separator).skip 1 with allowsKey := true }

/-- The indicator of an item of a block sequence. -/
def dash (s : Lexer) : Except Fault Lexer := do
  if !s.inFlow && !s.allowsKey then throw .malformed
  let s := if s.inFlow then s else s.openAt s.cursor.column s.found .blockSequence
  let s ← { s with allowsKey := true }.dropCandidate
  return (s.push .item).skip 1

/-- The indicator of a key that is announced. -/
def questionMark (s : Lexer) : Except Fault Lexer := do
  if !s.inFlow && !s.allowsKey then throw .malformed
  let s := if s.inFlow then s else s.openAt s.cursor.column s.found .blockMapping
  let s ← { s with allowsKey := !s.inFlow }.dropCandidate
  return (s.push .key).skip 1

/-- The indicator of a value. If there is a candidate, it was a key. -/
def colon (s : Lexer) : Except Fault Lexer := do
  match s.candidate with
  | some key =>
    let s := { s.insertAt key.position .key with candidate := none, allowsKey := false }
    let s := if s.inFlow then s else s.openAt key.column key.position .blockMapping
    return (s.push .value).skip 1
  | none =>
    if !s.inFlow && !s.allowsKey then throw .malformed
    let s := if s.inFlow then s else s.openAt s.cursor.column s.found .blockMapping
    return ({ s with allowsKey := !s.inFlow }.push .value).skip 1

/-! ## Directives, anchors and tags -/

/-- The longest name at the start of a text, which must not be empty. -/
def nameOf (cs : List Char) : Except Fault (Scanned Char) :=
  let name := cs.takeWhile isNameChar
  if name.isEmpty then .error .malformed else .ok ⟨name, cs.drop name.length⟩

/-- A decimal number. -/
def numberOf (cs : List Char) : Except Fault (Int × List Char) :=
  let digits := cs.takeWhile Char.isDigit
  if digits.isEmpty then .error .malformed
  else
    match readPoints 10 (digits.map .char) with
    | .ok n => .ok (n, cs.drop digits.length)
    | .error fault => .error (.integer fault)

/-- The handle of a tag: an exclamation mark, or a name between two of them. -/
def handleOf (cs : List Char) : Except Fault (Scanned Char) :=
  match cs with
  | '!' :: inner =>
    if inner.head? = some ' ' then .ok ⟨['!'], inner⟩
    else
      let name := inner.takeWhile isNameChar
      match inner.drop name.length with
      | '!' :: rest => .ok ⟨'!' :: name ++ ['!'], rest⟩
      | _ => .error .malformed
  | _ => .error .malformed

/-- The characters that a tag may consist of. -/
def isTagChar (c : Char) : Bool :=
  c.isAlphanum || "-;/?:@&=+$,_.!~*'()[]%".toList.contains c

/-- The bytes that are written with percent signs at the start of a text. -/
def percentBytes : List Char → Except Fault (List UInt8 × List Char)
  | '%' :: a :: b :: cs => do
    let some m := hexDigit? a | throw .malformed
    let some n := hexDigit? b | throw .malformed
    let (bytes, rest) ← percentBytes cs
    return (UInt8.ofNat (16 * m + n) :: bytes, rest)
  | '%' :: _ => throw .malformed
  | cs => return ([], cs)

/-- The text of a tag. Runs of bytes written with percent signs have to be valid text; `bound` is
the length of `cs`. -/
def tagTextFrom (bound : Nat) (cs : List Char) : Except Fault (Scanned Char) :=
  match bound, cs with
  | 0, cs => .ok ⟨[], cs⟩
  | _, [] => .ok ⟨[], []⟩
  | bound + 1, c :: cs =>
    if c = '%' then do
      let (bytes, rest) ← percentBytes (c :: cs)
      match String.fromUTF8? bytes.toByteArray with
      | none => throw .malformed
      | some s => return (← tagTextFrom bound rest).after s.toList
    else if isTagChar c then do return (← tagTextFrom bound cs).after [c]
    else .ok ⟨[], c :: cs⟩

/-- The text of a tag, which must not be empty. -/
def tagText (cs : List Char) : Except Fault (Scanned Char) := do
  if !cs.head?.any isTagChar then throw .malformed
  tagTextFrom cs.length cs

/-- What a directive says, from behind its indicator, and what follows it on the line. -/
def directiveOf (cs : List Char) : Except Fault (Directive × List Char) := do
  let ⟨name, cs⟩ ← nameOf cs
  if !isSpaceAt cs.head? then throw .malformed
  if name = "YAML".toList then
    let (major, cs) ← numberOf (cs.dropWhile (· == ' '))
    match cs with
    | '.' :: cs =>
      let (minor, cs) ← numberOf cs
      if isSpaceAt cs.head? then return (.version major minor, cs) else throw .malformed
    | _ => throw .malformed
  else if name = "TAG".toList then
    let ⟨handle, cs⟩ ← handleOf (cs.dropWhile (· == ' '))
    if cs.head? ≠ some ' ' then throw .malformed
    let ⟨expansion, cs⟩ ← tagText (cs.dropWhile (· == ' '))
    if isSpaceAt cs.head? then return (.handle handle expansion, cs) else throw .malformed
  else
    return (.other, cs.dropWhile fun c ↦ !isBreak c)

def directive (s : Lexer) : Except Fault Lexer := do
  let s ← s.topLevel
  let (d, cs) ← directiveOf s.cursor.rest.tail
  return (s.push (.directive d)).skipTo (← emptyLine cs)

def documentMark (s : Lexer) (t : Token) : Except Fault Lexer := do
  return ((← s.topLevel).push t).skip 3

/-- Whether a character may follow the name of an anchor. -/
def endsAnchor (next : Option Char) : Bool :=
  isGapAt next || next.any fun c ↦ "?:,]\x7d%@\x60".toList.contains c

/-- An anchor or an alias. -/
def anchor (s : Lexer) (token : List Char → Token) : Except Fault Lexer := do
  let s ← s.markCandidate
  let ⟨name, cs⟩ ← nameOf s.cursor.rest.tail
  if !endsAnchor cs.head? then throw .malformed
  return { (s.push (token name)).skipTo cs with allowsKey := false }

/-- The tag at the start of a text: one in angle brackets stands for itself, a lone exclamation mark
too, and any other has a handle, which is a single mark unless a second one follows. -/
def tagOf (cs : List Char) : Except Fault (Token × List Char) := do
  match cs with
  | '!' :: '<' :: inner =>
    match ← tagText inner with
    | ⟨text, '>' :: rest⟩ => return (.tag none text, rest)
    | _ => throw .malformed
  | '!' :: inner =>
    if isGapAt inner.head? then return (.tag none ['!'], inner)
    let word := inner.takeWhile fun c ↦ !isSpaceAt (some c)
    let ⟨handle, cs⟩ ← if word.contains '!' then handleOf cs else .ok ⟨['!'], inner⟩
    let ⟨text, rest⟩ ← tagText cs
    return (.tag (some handle) text, rest)
  | _ => throw .malformed

def tag (s : Lexer) : Except Fault Lexer := do
  let s ← s.markCandidate
  let (t, cs) ← tagOf s.cursor.rest
  if !isSpaceAt cs.head? then throw .malformed
  return { (s.push t).skipTo cs with allowsKey := false }

/-! ## Scalars -/

def block (s : Lexer) (isFolded : Bool) : Except Fault Lexer := do
  let s ← { s with allowsKey := true }.dropCandidate
  let ⟨content, rest⟩ ← blockScalar isFolded s.indents.head? s.cursor.rest.tail
  return (s.push (.scalar (content.map .char) false)).skipTo rest

def quoted (s : Lexer) (scan : List Char → Except Fault (Scanned CodePoint)) :
    Except Fault Lexer := do
  let s ← s.markCandidate
  let ⟨content, rest⟩ ← scan s.cursor.rest.tail
  return { (s.push (.scalar content false)).skipTo rest with allowsKey := false }

def plain (s : Lexer) : Except Fault Lexer := do
  let s ← s.markCandidate
  let indent := (s.indents.head?.map (· + 1)).getD 0
  let scanned := plainFrom s.inFlow indent .none 0 s.cursor.rest
  return { (s.push (.scalar scanned.points.content true)).skipTo scanned.rest with
    allowsKey := scanned.broken }

/-! ## All tokens -/

/-- Find the next token, which begins with `c`. -/
def tokenAt (s : Lexer) (c : Char) : Except Fault Lexer :=
  let next := s.cursor.second?
  let atMargin := s.cursor.column == 0
  if atMargin && c == '%' then s.directive
  else if atMargin && isSeparator '-' s.cursor.rest then s.documentMark .documentStart
  else if atMargin && isSeparator '.' s.cursor.rest then s.documentMark .documentEnd
  else if c = '[' then s.openFlow .flowSequence
  else if c = '{' then s.openFlow .flowMapping
  else if c = ']' then s.closeFlow .flowSequenceEnd
  else if c = '}' then s.closeFlow .flowMappingEnd
  else if c = ',' then s.comma
  else if c == '-' && isGapAt next then s.dash
  else if c == '?' && (s.inFlow || isGapAt next) then s.questionMark
  else if c == ':' && (s.inFlow || isGapAt next) then s.colon
  else if c = '*' then s.anchor .alias
  else if c = '&' then s.anchor .anchor
  else if c = '!' then s.tag
  else if c == '|' && !s.inFlow then s.block false
  else if c == '>' && !s.inFlow then s.block true
  else if c = '\'' then s.quoted fun cs ↦ Scanned.points <$> singleQuoted .none cs
  else if c = '"' then s.quoted (doubleQuoted .none)
  else if startsPlain s.inFlow c next then s.plain
  else .error .malformed

/-- Find the next token, or that there is none. -/
def advance (s : Lexer) : Except Fault Lexer := do
  let s ← s.skipBlanks.dropStale
  let s := s.unwind (some s.cursor.column)
  match s.cursor.peek? with
  | none => return { ← s.topLevel with isDone := true }
  | some c => s.tokenAt c

/-- Whether the first token in the queue may still turn out to come behind the announcement of a
key. -/
def isOpen (s : Lexer) : Bool :=
  (s.candidate :: s.outer).any fun c ↦ c.any (·.position == s.taken)

/-- Find tokens until the first one is certain or there are no more, in at most `rounds` rounds. -/
def fill : (rounds : Nat) → Lexer → Except Fault Lexer
  | 0, _ => .error .malformed
  | rounds + 1, s => do
    if s.isDone then return s
    if s.queue.isEmpty then fill rounds (← s.advance)
    else
      let s ← s.dropStale
      if s.isOpen then fill rounds (← s.advance) else return s

/-- Take the first token. -/
def drop (s : Lexer) : Lexer := { s with queue := s.queue.tail, taken := s.taken + 1 }

/-- The state in front of a text, all characters of which have to be allowed. -/
def start (cs : List Char) : Except Fault Lexer :=
  if cs.all isAllowed then .ok { cursor := .start cs } else .error .malformed

end Lexer

end CallGate.Yaml
