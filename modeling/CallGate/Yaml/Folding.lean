import CallGate.Yaml.Cursor

/-!
# Folding of lines

A scalar may run over several lines. What stands between two of its words is a `Gap`: blanks within
a line, or line breaks with blanks around them. Blanks are kept; a single break becomes a space, of
several breaks the first one is dropped, and the blanks around breaks do not count.
-/

namespace CallGate.Yaml

/-- What stands between two words of a scalar. -/
inductive Gap where
  /-- Blanks within a line, perhaps none. -/
  | within (blanks : List Char)
  /-- A line break, and further ones after it. -/
  | folded (first : Char) (more : List Char)
  /-- A line break that does not count, and further ones after it. -/
  | escaped (more : List Char)
deriving DecidableEq, Repr

namespace Gap

/-- No gap at all. -/
def none : Gap := within []

/-- What is left of a gap when the lines are folded. -/
def text : Gap → List Char
  | within blanks => blanks
  | folded first more =>
    if first ≠ '\n' then first :: more else if more.isEmpty then [' '] else more
  | escaped more => more

/-- The gap with one more blank. -/
def addBlank (blank : Char) : Gap → Gap
  | within blanks => within (blanks ++ [blank])
  | g => g

/-- The gap with one more line break. -/
def addBreak (c : Char) : Gap → Gap
  | within _ => folded c []
  | folded first more => folded first (more ++ [c])
  | escaped more => escaped (more ++ [c])

/-- Whether a gap goes over the end of a line. -/
def isBroken : Gap → Bool
  | within _ => false
  | _ => true

end Gap

end CallGate.Yaml
