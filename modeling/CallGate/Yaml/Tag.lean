import CallGate.Yaml.Cursor

/-!
# Tags

Every node has a tag that says what kind of value it stands for. The tag can be written, as a URI
that is mostly abbreviated; a plain scalar without one gets its tag from its form. The forms are
those of version 1.1: many words for truth values, integers in four bases and in base sixty,
decimals that need a point, and dates.

This module recognizes forms. What a scalar of some form stands for is in `Yaml/Scalar`. A quoted
scalar can be given the tag of its form too, which is how forms come to have line breaks.
-/

namespace CallGate.Yaml

/-- What kind of value a node stands for. -/
inductive Tag where
  | null
  | bool
  | int
  | real
  | moment
  | text
  | binary
  | sequence
  | mapping
  | set
  /-- A list of pairs, in the order of the document. -/
  | pairs
  /-- The key under which a mapping takes over the entries of others. -/
  | merge
  /-- The key for the default value of a mapping. -/
  | value
  | other (uri : List Char)
deriving DecidableEq, Repr

namespace Tag

/-- What the URIs of the known tags begin with. -/
def common : List Char := "tag:yaml.org,2002:".toList

/-- The known tags by the ends of their URIs. -/
def known : List (String × Tag) :=
  [
    ("null", null), ("bool", bool), ("int", int), ("float", real), ("timestamp", moment),
    ("str", text), ("binary", binary), ("seq", sequence), ("map", mapping), ("set", set),
    ("omap", pairs), ("pairs", pairs), ("merge", merge), ("value", value)
  ]

/-- The tag of a URI. -/
def ofUri (uri : List Char) : Tag :=
  match known.find? fun e ↦ common ++ e.1.toList = uri with
  | some (_, tag) => tag
  | none => other uri

/-! ## Forms of scalars -/

/-- The words for truth values. -/
def boolWords : List (String × Bool) :=
  [
    ("yes", true), ("Yes", true), ("YES", true), ("no", false), ("No", false), ("NO", false),
    ("true", true), ("True", true), ("TRUE", true), ("false", false), ("False", false),
    ("FALSE", false), ("on", true), ("On", true), ("ON", true), ("off", false), ("Off", false),
    ("OFF", false)
  ]

def nullWords : List String := ["", "~", "null", "Null", "NULL"]

/-- A text without its sign. -/
def dropSign : List Char → List Char
  | '+' :: cs | '-' :: cs => cs
  | cs => cs

/-- A digit of a base of at most ten. -/
def isDigitBelow (base : Nat) (c : Char) : Bool := '0' ≤ c && c.toNat < '0'.toNat + base

def isHexDigit (c : Char) : Bool :=
  c.isDigit || ('a' ≤ c && c ≤ 'f') || ('A' ≤ c && c ≤ 'F')

/-- Digits with underscores anywhere behind the first one, of which `isFirst` tells more. -/
def isGrouped (isFirst : Char → Bool) : List Char → Bool
  | [] => false
  | c :: cs => isFirst c && cs.all fun d ↦ d.isDigit || d == '_'

/-- A number below sixty. -/
def isSixtieth : List Char → Bool
  | [d] => d.isDigit
  | [t, d] => isDigitBelow 6 t && d.isDigit
  | _ => false

/-- A number in base sixty: at least two places, which are divided by colons. -/
def isSexagesimal (isFirst : Char → Bool) (cs : List Char) : Bool :=
  match cs.splitOn ':' with
  | first :: place :: places => isGrouped isFirst first && (place :: places).all isSixtieth
  | _ => false

def isInt (cs : List Char) : Bool :=
  let isNonzero (c : Char) := c.isDigit && c != '0'
  match dropSign cs with
  | '0' :: 'b' :: digits => !digits.isEmpty && digits.all fun c ↦ c == '_' || isDigitBelow 2 c
  | '0' :: 'x' :: digits => !digits.isEmpty && digits.all fun c ↦ c == '_' || isHexDigit c
  | '0' :: digits => digits.all fun c ↦ c == '_' || isDigitBelow 8 c
  | cs => isGrouped isNonzero cs || isSexagesimal isNonzero cs

/-- Nothing, or an exponent with a sign. -/
def isExponent : List Char → Bool
  | [] => true
  | e :: sign :: digits =>
    (e == 'e' || e == 'E') && (sign == '+' || sign == '-') && !digits.isEmpty &&
      digits.all Char.isDigit
  | _ => false

def isReal (cs : List Char) : Bool :=
  let isFractionChar (c : Char) := c.isDigit || c == '_'
  let unsigned := dropSign cs
  let whole := unsigned.takeWhile (· != '.')
  match unsigned.drop whole.length with
  | [] => false
  | _ :: after =>
    let rest := after.dropWhile isFractionChar
    if whole.isEmpty then
      after ∈ ["inf".toList, "Inf".toList, "INF".toList] ||
        (unsigned.length == cs.length &&
          (after ∈ ["nan".toList, "NaN".toList, "NAN".toList] ||
            (after.head?.any Char.isDigit && isExponent rest)))
    else
      (isGrouped Char.isDigit whole && isExponent rest) ||
        (isSexagesimal Char.isDigit whole && rest.isEmpty)

end Tag

/-! ## Dates -/

/-- Between one and two digits, or exactly two, as a number. -/
def twoDigits (strict : Bool) : List Char → Option (Nat × List Char)
  | a :: b :: cs =>
    if !a.isDigit then none
    else if b.isDigit then some (10 * (a.toNat - 48) + (b.toNat - 48), cs)
    else if strict then none
    else some (a.toNat - 48, b :: cs)
  | [a] => if a.isDigit && !strict then some (a.toNat - 48, []) else none
  | [] => none

/-- A character that has to come next. -/
def expect (c : Char) : List Char → Option (List Char)
  | d :: cs => if c = d then some cs else none
  | [] => none

/-- The minutes of an offset: nothing, or two digits behind a colon. -/
def minutesOf : List Char → Option Nat
  | [] => some 0
  | ':' :: cs => do
    let (minutes, rest) ← twoDigits true cs
    guard rest.isEmpty
    return minutes
  | _ => none

/-- An offset from universal time in minutes; none if nothing is left. -/
def offsetOf (cs : List Char) : Option (Option Int) :=
  match cs.dropWhile fun c ↦ c == ' ' || c == '\t' with
  | [] => if cs.isEmpty then some none else none
  | ['Z'] => some (some 0)
  | sign :: cs => do
    guard (sign == '+' || sign == '-')
    let (hours, cs) ← twoDigits false cs
    let minutes ← minutesOf cs
    let offset : Int := 60 * hours + minutes
    return some (if sign = '-' then -offset else offset)

/-- Microseconds from the digits of a fraction; digits beyond the sixth are cut off. -/
def microseconds (digits : List Char) : Nat :=
  let padded := (digits ++ List.replicate 6 '0').take 6
  padded.foldl (fun n d ↦ 10 * n + (d.toNat - 48)) 0

/-- The time of day behind a date: a `t` or blanks, the time, perhaps a fraction of a second, and
perhaps an offset. -/
def timeOf (cs : List Char) : Option Data.TimeOfDay := do
  let cs ← match cs with
    | 't' :: cs | 'T' :: cs => some cs
    | ' ' :: cs | '\t' :: cs => some (cs.dropWhile fun c ↦ c == ' ' || c == '\t')
    | _ => none
  let (hour, cs) ← twoDigits false cs
  let (minute, cs) ← twoDigits true (← expect ':' cs)
  let (second, cs) ← twoDigits true (← expect ':' cs)
  let (microsecond, cs) := match cs with
    | '.' :: cs =>
      let digits := cs.takeWhile Char.isDigit
      (microseconds digits, cs.drop digits.length)
    | cs => (0, cs)
  let offset ← offsetOf cs
  return ⟨hour, minute, second, microsecond, offset⟩

/-- A date, or a date and a time. Month and day may leave out leading zeros. -/
def momentOf? (cs : List Char) : Option Data.Moment := do
  let digits := cs.take 4
  guard (digits.length = 4 ∧ digits.all Char.isDigit)
  let year := digits.foldl (fun n d ↦ 10 * n + (d.toNat - 48)) 0
  let (month, cs) ← twoDigits false (← expect '-' (cs.drop 4))
  let (day, cs) ← twoDigits false (← expect '-' cs)
  if cs.isEmpty then return ⟨⟨year, month, day⟩, none⟩
  else return ⟨⟨year, month, day⟩, some (← timeOf cs)⟩

/-- Whether a text is a date, or a date and a time. A date alone has to have its leading zeros. -/
def isMoment (cs : List Char) : Bool :=
  (momentOf? cs).any fun m ↦ m.time.isSome || cs.length == 10

/-! ## Tags from forms -/

/-- A text without the line break at its end, if there is one. -/
def dropFinalBreak (cs : List Char) : List Char :=
  if cs.getLast? = some '\n' then cs.dropLast else cs

/-- The characters that are no plain scalars on their own, and have no kind. -/
def loneIndicators : List String := ["!", "&", "*"]

/-- The tag of a scalar by its form. A line break at the end does not count, unless there is nothing
else. -/
def Tag.ofForm (cs : List Char) : Tag :=
  let form := dropFinalBreak cs
  let s := String.ofList form
  if form.isEmpty && !cs.isEmpty then text
  else if (boolWords.lookup s).isSome then bool
  else if isReal form then real
  else if isInt form then int
  else if s = "<<" then merge
  else if s ∈ nullWords then null
  else if isMoment form then moment
  else if s = "=" then value
  else if s ∈ loneIndicators then other (common ++ "yaml".toList)
  else text

end CallGate.Yaml
