import CallGate.Number.Binary64

/-!
# Shortest decimals

A double is written with the fewest digits that read back as the same double, and among the
decimals with that many digits with the one nearest to it. The reals that read back as a double form
an interval around it, whose ends belong to it exactly when the mantissa is even. For a growing
number of digits the two neighbours of the double on the grid of decimals with that many digits are
tried; seventeen digits always suffice.

`style` holds the conventions of the notation: up to 16 digits before the point and 4 zeros after it
are written out, a whole number keeps `.0`, and an exponent has a sign and two digits at least.
-/

namespace CallGate.Number

/-- The decimal `digits * 10 ^ exponent`. -/
structure Decimal where
  digits : Nat
  exponent : Int
deriving DecidableEq, Repr

/-- `10 ^ e` and `2 ^ e` as fractions. -/
private def powerRatio (base : Nat) (e : Int) : Nat × Nat :=
  if 0 ≤ e then (Nat.pow base e.toNat, 1) else (1, Nat.pow base (-e).toNat)

/-- The exponent of the leading digit of `num / den`: the greatest `k` with `10 ^ k ≤ num / den`. -/
def leadingExponent (num den : Nat) : Int :=
  let guess : Int := ((num.log2 : Int) - den.log2) * 30103 / 100000
  let reaches (k : Int) : Bool := let (p, q) := powerRatio 10 k; p * den ≤ num * q
  if reaches (guess + 2) then guess + 2
  else if reaches (guess + 1) then guess + 1
  else if reaches guess then guess
  else if reaches (guess - 1) then guess - 1
  else guess - 2

/-- The interval of reals that round to a double: its ends, as numerators over four times a
denominator, and whether the ends belong to it. -/
structure RoundingInterval where
  low : Nat
  value : Nat
  high : Nat
  den : Nat
  closed : Bool

/-- The interval around `mantissa * 2 ^ exponent`. Below a power of two doubles lie twice as close,
unless the exponent is the least one. -/
def roundingInterval (mantissa : Nat) (exponent : Int) : RoundingInterval :=
  let (p, q) := powerRatio 2 exponent
  let below := if 2 * mantissa = Binary64.mantissaLimit ∧ -1074 < exponent then 1 else 2
  ⟨(4 * mantissa - below) * p, 4 * mantissa * p, (4 * mantissa + 2) * p, 4 * q, mantissa % 2 == 0⟩

/-- Whether `digits * 10 ^ exponent` lies in an interval. -/
def RoundingInterval.contains (i : RoundingInterval) (x : Decimal) : Bool :=
  let (p, q) := powerRatio 10 x.exponent
  let lhs := x.digits * p * i.den
  if i.closed then i.low * q ≤ lhs && lhs ≤ i.high * q else i.low * q < lhs && lhs < i.high * q

/-- The decimal on the grid of `10 ^ exponent` that is nearest to the value of an interval and lies
in the interval; of two equally near ones the even. -/
def RoundingInterval.nearest? (i : RoundingInterval) (exponent : Int) : Option Decimal :=
  let (p, q) := powerRatio 10 exponent
  let num := i.value * q
  let den := i.den * p
  let lower : Decimal := ⟨num / den, exponent⟩
  let upper : Decimal := ⟨num / den + 1, exponent⟩
  let twice := 2 * (num % den)
  let lowerFirst := twice < den || (twice == den && lower.digits % 2 == 0)
  match i.contains lower, i.contains upper with
  | true, true => some (if lowerFirst then lower else upper)
  | true, false => some lower
  | false, true => some upper
  | false, false => none

/-- The shortest decimal that reads back as `mantissa * 2 ^ exponent`. -/
def shortest (mantissa : Nat) (exponent : Int) : Decimal :=
  let i := roundingInterval mantissa exponent
  let leading := leadingExponent i.value i.den
  ((List.range 17).findSome? fun (n : Nat) ↦ i.nearest? (leading - n)).getD ⟨mantissa, exponent⟩

/-! ## Notation -/

/-- The conventions of a notation for numbers. -/
structure DecimalStyle where
  /-- Numbers below ten to this power are written without an exponent. -/
  positionalBelow : Int
  /-- Numbers from ten to this power on are written without an exponent. -/
  positionalFrom : Int
  /-- The least number of digits in an exponent. -/
  exponentDigits : Nat

/-- The conventions for real numbers in messages. -/
def style : DecimalStyle := ⟨16, -4, 2⟩

/-- Take the zeros off the end of a list of digits. -/
private def dropTrailingZeros (ds : List Char) : List Char :=
  (ds.reverse.dropWhile (· == '0')).reverse

/-- The digits `ds`, of which the first stands for ten to the power `leading`. -/
def DecimalStyle.render (s : DecimalStyle) (ds : List Char) (leading : Int) : List Char :=
  if s.positionalFrom ≤ leading ∧ leading < s.positionalBelow then
    if leading < 0 then
      ['0', '.'] ++ List.replicate (-leading - 1).toNat '0' ++ ds
    else
      let whole := leading.toNat + 1
      let front := ds.take whole ++ List.replicate (whole - ds.length) '0'
      let back := ds.drop whole
      front ++ ['.'] ++ if back.isEmpty then ['0'] else back
  else
    let front := match ds with
      | [] => ['0']
      | [d] => [d]
      | d :: rest => d :: '.' :: rest
    let power := (toString leading.natAbs).toList
    front ++ ['e', if leading < 0 then '-' else '+'] ++
      List.replicate (s.exponentDigits - power.length) '0' ++ power

/-- A double in its shortest notation. -/
def Binary64.text : Binary64 → String
  | .nan => "nan"
  | .infinite negative => if negative then "-inf" else "inf"
  | .finite negative mantissa exponent =>
    let unsigned :=
      if mantissa = 0 then ['0', '.', '0']
      else
        let d := shortest mantissa exponent
        let ds := (toString d.digits).toList
        style.render (dropTrailingZeros ds) (d.exponent + ds.length - 1)
    String.ofList (if negative then '-' :: unsigned else unsigned)

end CallGate.Number
