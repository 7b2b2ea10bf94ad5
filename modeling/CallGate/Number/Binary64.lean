/-!
# Binary floating-point numbers

A number with a fraction or an exponent is kept as the double that is nearest to it, but as an exact
quantity: a sign, a mantissa and a power of two. Everything that is done with such a number here,
comparing it, cutting off its fraction, writing it down, is exact integer arithmetic, and a sum or a
product is the exact one, rounded once.

`ofDecimal` rounds to the nearest double, a tie to the even mantissa. A mantissa has at most 53
bits, an exponent is at least -1074, and a magnitude from half a unit above the largest double on
becomes infinite.
-/

namespace CallGate.Number

/-- A double as an exact quantity; a finite one stands for `± mantissa * 2 ^ exponent`. -/
inductive Binary64 where
  | finite (negative : Bool) (mantissa : Nat) (exponent : Int)
  | infinite (negative : Bool)
  | nan
deriving DecidableEq, Repr

namespace Binary64

/-- The mantissas of doubles lie below this number. -/
def mantissaLimit : Nat := Nat.pow 2 53

/-- The quotient rounded to an integer, a tie to the even one. -/
def roundDiv (num den : Nat) : Nat :=
  let q := num / den
  let twice := 2 * (num % den)
  if den < twice ∨ (twice = den ∧ q % 2 = 1) then q + 1 else q

/-- The quotient of two numbers scaled by a power of two, as a fraction again. -/
def scale (num den : Nat) (exponent : Int) : Nat × Nat :=
  if 0 ≤ exponent then (num * Nat.pow 2 exponent.toNat, den)
  else (num, den * Nat.pow 2 (-exponent).toNat)

/-- The double nearest to `± num / den`. -/
def ofRatio (negative : Bool) (num den : Nat) : Binary64 :=
  if num = 0 then .finite negative 0 (-1074)
  else
    let guess : Int := (num.log2 : Int) - den.log2 - 53
    let (n, d) := scale num den (-guess)
    let exponent := max (-1074) (if n < mantissaLimit * d then guess else guess + 1)
    let (n, d) := scale num den (-exponent)
    let mantissa := roundDiv n d
    if mantissa < mantissaLimit then
      if 971 < exponent then .infinite negative else .finite negative mantissa exponent
    else
      if 970 < exponent then .infinite negative
      else .finite negative (mantissa / 2) (exponent + 1)

/-- The double nearest to an integer, unless the integer is beyond the largest one. -/
def ofInt? (n : Int) : Option Binary64 :=
  match ofRatio (n < 0) n.natAbs 1 with
  | infinite _ => none
  | x => some x

/-- The double nearest to `± digits * 10 ^ exponent`. Exponents beyond the range of doubles are
answered without computing the power. -/
def ofDecimal (negative : Bool) (digits : Nat) (exponent : Int) : Binary64 :=
  if digits = 0 then .finite negative 0 (-1074)
  else if 400 < exponent then .infinite negative
  else if exponent < -400 - digits.log2 then .finite negative 0 (-1074)
  else if 0 ≤ exponent then ofRatio negative (digits * Nat.pow 10 exponent.toNat) 1
  else ofRatio negative digits (Nat.pow 10 (-exponent).toNat)

/-! ## Exact questions -/

/-- The integer part of a number: its fraction is cut off. -/
def truncate? : Binary64 → Option Int
  | finite negative mantissa exponent =>
    let magnitude :=
      if 0 ≤ exponent then mantissa * Nat.pow 2 exponent.toNat
      else mantissa / Nat.pow 2 (-exponent).toNat
    some (if negative then -magnitude else magnitude)
  | _ => none

/-- Whether a number is an integer. -/
def isIntegral : Binary64 → Bool
  | finite _ mantissa exponent => 0 ≤ exponent || mantissa % Nat.pow 2 (-exponent).toNat == 0
  | _ => false

/-- The integer that a number is. -/
def toInt? (x : Binary64) : Option Int :=
  if x.isIntegral then x.truncate? else none

/-- The integer `± mantissa * 2 ^ shift`. -/
def shifted (negative : Bool) (mantissa shift : Nat) : Int :=
  let magnitude := mantissa * Nat.pow 2 shift
  if negative then -magnitude else magnitude

/-- How two numbers stand to each other; `nan` stands to nothing. -/
def compare? : Binary64 → Binary64 → Option Ordering
  | nan, _ | _, nan => none
  | infinite a, infinite b =>
    some (if a = b then .eq else if a then .lt else .gt)
  | infinite a, finite .. => some (if a then .lt else .gt)
  | finite .., infinite b => some (if b then .gt else .lt)
  | finite a m e, finite b n f =>
    let low := min e f
    some (compare (shifted a m (e - low).toNat) (shifted b n (f - low).toNat))

/-! ## Arithmetic -/

def neg : Binary64 → Binary64
  | finite negative mantissa exponent => finite (!negative) mantissa exponent
  | infinite negative => infinite (!negative)
  | nan => nan

/-- The double nearest to `n * 2 ^ exponent`; a zero is negative if `zeroSign` says so. -/
def ofShifted (zeroSign : Bool) (n : Int) (exponent : Int) : Binary64 :=
  let (num, den) := scale n.natAbs 1 exponent
  ofRatio (if n = 0 then zeroSign else n < 0) num den

/-- The sum, rounded. A sum of zero is negative only if both numbers are. -/
def add : Binary64 → Binary64 → Binary64
  | nan, _ | _, nan => nan
  | infinite a, infinite b => if a = b then infinite a else nan
  | infinite a, finite .. => infinite a
  | finite .., infinite b => infinite b
  | finite a m e, finite b n f =>
    let low := min e f
    ofShifted (a && b) (shifted a m (e - low).toNat + shifted b n (f - low).toNat) low

def sub (x y : Binary64) : Binary64 := x.add y.neg

/-- The product, rounded. -/
def mul : Binary64 → Binary64 → Binary64
  | nan, _ | _, nan => nan
  | infinite a, infinite b => infinite (a != b)
  | infinite a, finite b n _ | finite b n _, infinite a => if n = 0 then nan else infinite (a != b)
  | finite a m e, finite b n f => ofShifted (a != b) (shifted (a != b) (m * n) 0) (e + f)

end Binary64

end CallGate.Number
