import CallGate.Text.Blank
import CallGate.Text.DecimalDigit

/-!
# Integer literals

An integer is written with an optional sign and digits, white space around it does not matter, and
single underscores may stand between digits. A literal in base two, eight or sixteen may begin with
a prefix that names its base, and with one underscore right after the prefix. Any digit may come
from any script.

A decimal literal may have at most `digitLimit` digits, zeros in front included and underscores not;
the other bases have no limit. Too many digits are noticed before it is known whether anything but
white space follows them.
-/

namespace CallGate.Number

open CallGate.Text

/-- The greatest number of digits with which a number is read or written in decimal. -/
def digitLimit : Nat := 4300

/-- Why a text is no integer. -/
inductive LiteralFault where
  | malformed
  /-- It has more digits than can be read. -/
  | tooManyDigits (count : Nat)
deriving DecidableEq, Repr

/-- What the digits at the start of a text make, how many there are, and what follows them. -/
structure Digits where
  value : Nat
  count : Nat
  rest : List Char
deriving DecidableEq, Repr

/-- The digits at the start of a text. `value` and `count` tell of those that were read already and
`afterDigit` whether the last character was a digit, which is where an underscore or the end may
stand. -/
def digitsFrom (base value count : Nat) (afterDigit : Bool) : List Char → Option Digits
  | [] => if afterDigit then some ⟨value, count, []⟩ else none
  | c :: cs =>
    if afterDigit && c == '_' then digitsFrom base value count false cs
    else
      match digitValue? base c with
      | some d => digitsFrom base (value * base + d) (count + 1) true cs
      | none => if afterDigit then some ⟨value, count, c :: cs⟩ else none

/-- A sign, if there is one, and the rest. -/
def splitSign : List Char → Bool × List Char
  | '-' :: cs => (true, cs)
  | '+' :: cs => (false, cs)
  | cs => (false, cs)

/-- The number with a given sign. -/
def withSign (negative : Bool) (n : Nat) : Int :=
  if negative then -n else n

/-- The base that a prefix announces, and what comes after the prefix. -/
def splitBase? : List Char → Option (Nat × List Char)
  | '0' :: c :: cs =>
    if c = 'x' ∨ c = 'X' then some (16, cs)
    else if c = 'o' ∨ c = 'O' then some (8, cs)
    else if c = 'b' ∨ c = 'B' then some (2, cs)
    else none
  | _ => none

/-- A text without the prefix of a base and the underscore behind it. -/
def dropBase (base : Nat) (cs : List Char) : List Char :=
  match splitBase? cs with
  | some (announced, rest) =>
    if announced = base then
      match rest with
      | '_' :: digits => digits
      | digits => digits
    else cs
  | none => cs

/-- An integer in some base. -/
def readInteger (base : Nat) (cs : List Char) : Except LiteralFault Int :=
  let (negative, unsigned) := splitSign (cs.dropWhile isWhiteSpace)
  match digitsFrom base 0 0 false (dropBase base unsigned) with
  | none => .error .malformed
  | some digits =>
    if base = 10 ∧ digitLimit < digits.count then .error (.tooManyDigits digits.count)
    else if digits.rest.all isWhiteSpace then .ok (withSign negative digits.value)
    else .error .malformed

/-- Whether an integer can be written in decimal. -/
def isWritable (n : Int) : Bool := n.natAbs < Nat.pow 10 digitLimit

example : readInteger 10 " -1_0 ".toList = .ok (-10) ∧ readInteger 16 "0x_f".toList = .ok 15 ∧
    readInteger 10 "1__0".toList = .error .malformed := ⟨rfl, rfl, rfl⟩

end CallGate.Number
