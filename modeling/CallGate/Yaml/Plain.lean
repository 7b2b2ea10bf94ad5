import CallGate.Yaml.Quoted

/-!
# Plain scalars

A plain scalar has no quotes and ends where something else could begin: at a colon that is followed
by a gap, at a comment, at a tab, inside brackets at an indicator of theirs, and outside brackets
where a line is not indented enough. Gaps are passed over before it is known whether the scalar goes
on behind them, so that what follows it never begins with one.
-/

namespace CallGate.Yaml

/-- The characters that structure what stands in brackets. -/
def isFlowIndicator (c : Char) : Bool :=
  c == ',' || c == '[' || c == ']' || c == '{' || c == '}'

/-- Whether a character, given the one behind it, may start a plain scalar. -/
def startsPlain (inFlow : Bool) (c : Char) (next : Option Char) : Bool :=
  let indicators := "-?:,[]\x7b\x7d#&*!|>'\"%@\x60".toList
  !(isGapAt (some c) || indicators.contains c) ||
    (!isGapAt next && (c == '-' || (!inFlow && (c == '?' || c == ':'))))

/-- Whether a character, given the one behind it, ends a word of a plain scalar. -/
def endsPlain (inFlow : Bool) (c : Char) (next : Option Char) : Bool :=
  isGapAt (some c) || (c == ':' && (isGapAt next || (inFlow && next.any isFlowIndicator))) ||
    (inFlow && (isFlowIndicator c || c == '?'))

/-- A plain scalar, what follows it, and whether it was left over the end of a line. -/
structure PlainScanned extends Scanned Char where
  broken : Bool
deriving DecidableEq, Repr

/-- The same scalar with something in front of it. -/
def PlainScanned.after (front : List Char) (s : PlainScanned) : PlainScanned :=
  { s with content := front ++ s.content }

/-- The words of a plain scalar. `gap` is what was passed over since the last word, and `column` the
place in the line if a break was among it. A line of the scalar has to be indented by `indent`. -/
def plainFrom (inFlow : Bool) (indent : Nat) (gap : Gap) (column : Nat) :
    List Char → PlainScanned
  | [] => ⟨⟨[], []⟩, gap.isBroken⟩
  | c :: cs =>
    if c = ' ' then plainFrom inFlow indent (gap.addBlank c) (column + 1) cs
    else if isBreak c then
      if isDocumentMark cs then ⟨⟨[], cs⟩, true⟩
      else plainFrom inFlow indent (gap.addBreak c) 0 cs
    else if endsPlain inFlow c cs.head? || (c == '#' && gap != .none) ||
        (gap.isBroken && !inFlow && column < indent) then
      ⟨⟨[], c :: cs⟩, gap.isBroken⟩
    else
      (plainFrom inFlow indent .none 0 cs).after (gap.text ++ [c])

end CallGate.Yaml
