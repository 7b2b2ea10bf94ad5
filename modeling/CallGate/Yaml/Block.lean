import CallGate.Yaml.Quoted

/-!
# Block scalars

A block scalar is a header and the lines below it that are indented enough. A literal scalar keeps
its lines; in a folded one a break between two lines that both start at the indentation becomes a
space. The header can say how far the lines are indented, which is otherwise read off the first line
that is not empty, and what becomes of the breaks at the end.
-/

namespace CallGate.Yaml

/-- What becomes of the breaks at the end of a block scalar. -/
inductive Chomping where
  /-- All of them go. -/
  | strip
  /-- One of them stays. -/
  | clip
  /-- All of them stay. -/
  | keep
deriving DecidableEq, Repr

/-- What the header of a block scalar says. -/
structure BlockHeader where
  chomping : Chomping
  indentation : Option Nat
deriving DecidableEq, Repr

namespace BlockHeader

private def chompingOf? : Char → Option Chomping
  | '+' => some .keep
  | '-' => some .strip
  | _ => none

/-- The two indicators of a header, in either order, and what follows them. -/
def indicators : List Char → BlockHeader × List Char
  | c :: d :: cs =>
    match chompingOf? c, chompingOf? d with
    | some chomping, _ =>
      if d.isDigit then (⟨chomping, some (d.toNat - 48)⟩, cs) else (⟨chomping, none⟩, d :: cs)
    | none, some chomping =>
      if c.isDigit then (⟨chomping, some (c.toNat - 48)⟩, cs) else (⟨.clip, none⟩, c :: d :: cs)
    | none, none =>
      if c.isDigit then (⟨.clip, some (c.toNat - 48)⟩, d :: cs) else (⟨.clip, none⟩, c :: d :: cs)
  | [c] =>
    match chompingOf? c with
    | some chomping => (⟨chomping, none⟩, [])
    | none => if c.isDigit then (⟨.clip, some (c.toNat - 48)⟩, []) else (⟨.clip, none⟩, [c])
  | [] => (⟨.clip, none⟩, [])

end BlockHeader

/-- The rest of a line that may hold nothing but a comment, and what follows the line. -/
def emptyLine (cs : List Char) : Except Fault (List Char) :=
  let cs := cs.dropWhile (· == ' ')
  let cs := if cs.head? = some '#' then cs.dropWhile fun c ↦ !isBreak c else cs
  match cs with
  | [] => .ok []
  | c :: cs => if isBreak c then .ok cs else .error .malformed

/-! ## Lines -/

/-- A line without its break, and its break, which the last line of a text does not have. -/
structure Line where
  text : List Char
  ending : List Char
deriving DecidableEq, Repr

/-- The lines of a text. -/
def linesOf : List Char → List Line
  | [] => []
  | c :: cs =>
    if isBreak c then ⟨[], [c]⟩ :: linesOf cs
    else
      match linesOf cs with
      | [] => [⟨[c], []⟩]
      | line :: lines => { line with text := c :: line.text } :: lines

/-- The text of some lines. -/
def textOf (lines : List Line) : List Char := lines.flatMap fun l ↦ l.text ++ l.ending

/-- The indentation that is read off the first line that is not empty; an empty line with more
spaces counts for more. -/
def detectIndentation : List Line → Nat
  | [] => 0
  | line :: lines =>
    let spaces := (line.text.takeWhile (· == ' ')).length
    if spaces = line.text.length then max spaces (detectIndentation lines) else spaces

/-- What a line is to a block scalar of some indentation. -/
inductive LineRole where
  /-- It has no text. -/
  | blank
  /-- It has a text behind its indentation. -/
  | content (text : List Char)
  /-- It does not belong to the scalar. -/
  | outside
deriving DecidableEq, Repr

def Line.role (indentation : Nat) (line : Line) : LineRole :=
  let spaces := ((line.text.take indentation).takeWhile (· == ' ')).length
  match line.text.drop spaces with
  | [] => if line.ending.isEmpty then .outside else .blank
  | text => if spaces = indentation then .content text else .outside

/-- Whether a text starts right at the indentation. -/
def isFlush (text : List Char) : Bool := text.head?.all fun c ↦ c != ' ' && c != '\t'

/-- The content of a block scalar, the break of its last line and the breaks after that, and the
lines that follow. -/
structure BlockScanned where
  content : List Char
  ending : List Char
  breaks : List Char
  lines : List Line
deriving DecidableEq, Repr

/-- Read the lines of a block scalar. `previous` is the last line that had a text, and `breaks` what
stood after it. -/
def blockFrom (isFolded : Bool) (indentation : Nat) (previous : Option Line)
    (breaks : List Char) : List Line → BlockScanned
  | [] => ⟨[], (previous.map Line.ending).getD [], breaks, []⟩
  | line :: lines =>
    match line.role indentation with
    | .outside => ⟨[], (previous.map Line.ending).getD [], breaks, line :: lines⟩
    | .blank => blockFrom isFolded indentation previous (breaks ++ line.ending) lines
    | .content text =>
      let join := match previous with
        | none => []
        | some p =>
          if isFolded && p.ending == ['\n'] && isFlush p.text && isFlush text then
            if breaks.isEmpty then [' '] else []
          else p.ending
      let s := blockFrom isFolded indentation (some ⟨text, line.ending⟩) [] lines
      { s with content := join ++ breaks ++ text ++ s.content }

/-- A block scalar, from behind its indicator. `outer` is the indentation of the collection that it
is in. -/
def blockScalar (isFolded : Bool) (outer : Option Nat) (cs : List Char) :
    Except Fault (Scanned Char) := do
  let (header, cs) := BlockHeader.indicators cs
  if header.indentation = some 0 ∨ !isSpaceAt cs.head? then throw .malformed
  let lines := linesOf (← emptyLine cs)
  let least := match outer with
    | none => 1
    | some n => n + 1
  let indentation := match header.indentation with
    | some n => least + n - 1
    | none => max least (detectIndentation lines)
  let s := blockFrom isFolded indentation none [] lines
  let tail := match header.chomping with
    | .strip => []
    | .clip => s.ending
    | .keep => s.ending ++ s.breaks
  return ⟨s.content ++ tail, textOf s.lines⟩

end CallGate.Yaml
