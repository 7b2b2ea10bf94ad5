import CallGate.Text.CodePoint
import CallGate.Yaml.Folding

/-!
# Quoted scalars

A quoted scalar ends at its quote and at nothing else; running into the end of the text or into a
document mark at the start of a line is a fault. Between single quotes only the quote itself has to
be written in a special way, by doubling it. Between double quotes a backslash starts an escape,
which can also name one half of a surrogate pair, so that the content consists of code points.
-/

namespace CallGate.Yaml

open CallGate.Text

/-- The characters that a single letter stands for behind a backslash. -/
def escapes : List (Char × Char) :=
  [
    ('0', '\x00'), ('a', '\x07'), ('b', '\x08'), ('t', '\t'), ('\t', '\t'), ('n', '\n'),
    ('v', '\x0b'), ('f', '\x0c'), ('r', '\r'), ('e', '\x1b'), (' ', ' '), ('"', '"'),
    ('\\', '\\'), ('/', '/'), ('N', '\u0085'), ('_', '\u00a0'), ('L', '\u2028'), ('P', '\u2029')
  ]

/-- The value of a hexadecimal digit. -/
def hexDigit? (c : Char) : Option Nat :=
  if '0' ≤ c ∧ c ≤ '9' then some (c.toNat - '0'.toNat)
  else if 'a' ≤ c ∧ c ≤ 'f' then some (c.toNat - 'a'.toNat + 10)
  else if 'A' ≤ c ∧ c ≤ 'F' then some (c.toNat - 'A'.toNat + 10)
  else none

/-- The code point with a code given by hexadecimal digits. -/
def codePointOf (digits : List Char) : Except Fault CodePoint := do
  let some values := digits.mapM hexDigit? | throw .malformed
  let code := values.foldl (fun n d ↦ 16 * n + d) 0
  match CodePoint.ofCode? code with
  | some p => return p
  | none => throw (if code < 0x80000000 then .noCharacter else .escapeTooLarge)

/-- The content of something that was read, and what follows it. -/
structure Scanned (α : Type) where
  content : List α
  rest : List Char
deriving DecidableEq, Repr

/-- The same with something in front of it. -/
def Scanned.after {α : Type} (front : List α) (s : Scanned α) : Scanned α :=
  { s with content := front ++ s.content }

/-- The same as code points. -/
def Scanned.points (s : Scanned Char) : Scanned CodePoint := ⟨s.content.map .char, s.rest⟩

/-- What is left of a gap as code points. -/
def Gap.points (g : Gap) : List CodePoint := g.text.map .char

/-- The content of a scalar between single quotes, from behind the first one. -/
def singleQuoted (gap : Gap) : List Char → Except Fault (Scanned Char)
  | [] => throw .malformed
  | '\'' :: '\'' :: cs => do return (← singleQuoted .none cs).after (gap.text ++ ['\''])
  | c :: cs =>
    if c = '\'' then return ⟨gap.text, cs⟩
    else if c = ' ' ∨ c = '\t' then singleQuoted (gap.addBlank c) cs
    else if isBreak c then
      if isDocumentMark cs then throw .malformed else singleQuoted (gap.addBreak c) cs
    else do return (← singleQuoted .none cs).after (gap.text ++ [c])

/-- The content of a scalar between double quotes, from behind the first one. -/
def doubleQuoted (gap : Gap) : List Char → Except Fault (Scanned CodePoint)
  | [] => throw .malformed
  | '\\' :: 'x' :: a :: b :: cs => do
    let p ← codePointOf [a, b]
    return (← doubleQuoted .none cs).after (gap.points ++ [p])
  | '\\' :: 'u' :: a :: b :: c :: d :: cs => do
    let p ← codePointOf [a, b, c, d]
    return (← doubleQuoted .none cs).after (gap.points ++ [p])
  | '\\' :: 'U' :: a :: b :: c :: d :: e :: f :: g :: h :: cs => do
    let p ← codePointOf [a, b, c, d, e, f, g, h]
    return (← doubleQuoted .none cs).after (gap.points ++ [p])
  | '\\' :: c :: cs =>
    match escapes.lookup c with
    | some ch => do return (← doubleQuoted .none cs).after (gap.points ++ [.char ch])
    | none =>
      if isBreak c && !isDocumentMark cs then do
        return (← doubleQuoted (.escaped []) cs).after gap.points
      else
        throw .malformed
  | c :: cs =>
    if c = '"' then return ⟨gap.points, cs⟩
    else if c = ' ' ∨ c = '\t' then doubleQuoted (gap.addBlank c) cs
    else if isBreak c then
      if isDocumentMark cs then throw .malformed else doubleQuoted (gap.addBreak c) cs
    else do return (← doubleQuoted .none cs).after (gap.points ++ [.char c])

end CallGate.Yaml
