import CallGate.Text.LowerCase
import CallGate.Yaml.Base64
import CallGate.Yaml.Tag

/-!
# What scalars stand for

A scalar is a text with a tag. Where the tag came from the form of the text, the text nearly always
has a value; what is left are prefixes without digits, dates that are not in the calendar, and
numbers too long to be read. Where the tag was written, the text may be anything, and what can be
read as a number or a date is then more than the forms.

Numbers in base sixty have places that are divided by colons, each of which may be any number.
-/

namespace CallGate.Yaml

open CallGate.Data CallGate.Number CallGate.Text

/-- A text without its underscores. -/
def dropUnderscores (ps : List CodePoint) : List CodePoint := ps.filter (· != .char '_')

/-- The sign of a number and the rest of its text. There has to be something. -/
def splitNumberSign : List CodePoint → Except Fault (Bool × List CodePoint)
  | [] => .error .emptyNumber
  | .char '-' :: ps => .ok (true, ps)
  | .char '+' :: ps => .ok (false, ps)
  | ps => .ok (false, ps)

/-- The places of a number, highest first. -/
def placesOf (ps : List CodePoint) : List (List CodePoint) := ps.splitOn (.char ':')

/-! ## Integers -/

/-- An integer in some base. -/
def integerOf (base : Nat) (ps : List CodePoint) : Except Fault Int :=
  (readPoints base ps).mapError .integer

/-- The integer whose places in base sixty are given, highest first. -/
def sexagesimal (places : List Int) : Int := places.foldl (fun n place ↦ 60 * n + place) 0

def intOf (ps : List CodePoint) : Except Fault Int := do
  let (negative, ps) ← splitNumberSign (dropUnderscores ps)
  let n ← match ps with
    | [] => .error .emptyNumber
    | [.char '0'] => .ok 0
    | .char '0' :: .char 'b' :: digits => integerOf 2 digits
    | .char '0' :: .char 'x' :: digits => integerOf 16 digits
    | .char '0' :: digits => integerOf 8 (.char '0' :: digits)
    | ps =>
      if ps.contains (.char ':') then sexagesimal <$> (placesOf ps).mapM (integerOf 10)
      else integerOf 10 ps
  return if negative then -n else n

/-! ## Real numbers -/

/-- The digits at the start of a text, and what follows them. -/
def splitDigits (cs : List Char) : List Nat × List Char :=
  let digits := cs.takeWhile fun c ↦ (digitValue? 10 c).isSome
  (digits.filterMap (digitValue? 10), cs.drop digits.length)

/-- The number that some digits make. -/
def numberOfDigits (digits : List Nat) : Nat := digits.foldl (fun n d ↦ 10 * n + d) 0

/-- A decimal without a sign, perhaps with a point and perhaps with an exponent. -/
def decimalOf? (negative : Bool) (cs : List Char) : Option Binary64 := do
  let (whole, cs) := splitDigits cs
  let (fraction, cs) := match cs with
    | '.' :: cs => splitDigits cs
    | cs => ([], cs)
  guard !(whole.isEmpty && fraction.isEmpty)
  let exponent : Int ← match cs with
    | [] => some 0
    | 'e' :: cs =>
      let (below, cs) := splitSign cs
      let (digits, rest) := splitDigits cs
      if !digits.isEmpty && rest.isEmpty then some (withSign below (numberOfDigits digits))
      else none
    | _ => none
  return .ofDecimal negative (numberOfDigits (whole ++ fraction)) (exponent - fraction.length)

/-- A real number in lower case, with white space around it. -/
def floatOf? (cs : List Char) : Option Binary64 :=
  let (negative, cs) := splitSign (strip isWhiteSpace cs)
  let word := String.ofList cs
  if word = "inf" ∨ word = "infinity" then some (.infinite negative)
  else if word = "nan" then some .nan
  else decimalOf? negative cs

/-- A real number; the fault shows the text. -/
def floatOf (ps : List CodePoint) : Except Fault Binary64 :=
  match floatOf? (ps.map CodePoint.shown) with
  | some x => .ok x
  | none => .error (.real (quotePoints ps))

/-- The real number whose places in base sixty are given, lowest first, of which the first has the
given weight. Every product and every sum is rounded. -/
def sexagesimalReal (weight : Nat) (total : Binary64) : List Binary64 → Except Fault Binary64
  | [] => .ok total
  | place :: places =>
    match Binary64.ofInt? weight with
    | none => .error .realTooLarge
    | some w => sexagesimalReal (60 * weight) (total.add (place.mul w)) places

/-- The sign of a real number and the rest of its text, which is brought into lower case. -/
def splitReal (ps : List CodePoint) : Except Fault (Bool × List CodePoint) :=
  splitNumberSign (lowerPoints (dropUnderscores ps))

/-- The words with a point in front. -/
def infinityWord : List CodePoint := codePoints ".inf"

def nanWord : List CodePoint := codePoints ".nan"

def realOf (ps : List CodePoint) : Except Fault Binary64 := do
  let (negative, ps) ← splitReal ps
  let x ←
    if ps = infinityWord then .ok (.infinite false)
    else if ps = nanWord then .ok .nan
    else if ps.contains (.char ':') then do
      sexagesimalReal 1 (.finite false 0 0) (← (placesOf ps).mapM floatOf).reverse
    else floatOf ps
  return if negative then x.neg else x

/-- Whether a text is the word for what is not a number. All scalars with that word are one and the
same. -/
def isNaNWord (ps : List CodePoint) : Bool :=
  match splitReal ps with
  | .ok (_, ps) => ps == nanWord
  | .error _ => false

/-! ## Other scalars -/

def momentOf (ps : List CodePoint) : Except Fault Moment :=
  match momentOf? (dropFinalBreak (ps.map CodePoint.shown)) with
  | none => .error .noMoment
  | some m =>
    match m.fault? with
    | none => .ok m
    | some fault => .error (.moment fault)

def boolOf (ps : List CodePoint) : Except Fault Bool :=
  let word := lowerPoints ps
  match Tag.boolWords.find? fun e ↦ codePoints e.1 == word with
  | some (_, b) => .ok b
  | none => .error (.bool (quotePoints word))

/-- The value of a scalar. The tags of collections, and the two that have a meaning only for keys,
give it none. -/
def scalarValue (tag : Tag) (ps : List CodePoint) : Except Fault Value :=
  match tag with
  | .null => .ok .null
  | .bool => .bool <$> boolOf ps
  | .int => .int <$> intOf ps
  | .real => .real <$> realOf ps
  | .moment => .moment <$> momentOf ps
  | .text => .ok (.ofPoints ps)
  | .binary => .bytes <$> base64 (ps.map CodePoint.shown)
  | .sequence | .mapping | .set | .pairs | .merge | .value | .other _ => .error .malformed

end CallGate.Yaml
