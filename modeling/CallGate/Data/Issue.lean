import CallGate.Data.Value

/-!
# Faults in plain data

When data does not have the shape that was asked for, every fault is reported, each with the path
that leads to it from the outermost value. A reader of a record collects the faults of its fields in
the order of their declaration, and after them the keys that it does not know, in the order of the
data; `Checked.both` and its like keep that order. The tag and the text of a fault are part of what
is reported, and are written down once, here.
-/

namespace CallGate.Data

/-- One step into a value: under a key, or to a position. -/
inductive PathStep where
  | key (name : String)
  | index (position : Int)
deriving DecidableEq, Repr

/-- The step under a key. A key that is no text and no small integer is shown in its written form,
if it has one. -/
def PathStep.ofKey : Value → PathStep
  | .text s => .key s
  | .int n =>
    if fitsWord n then .index n
    else if Number.isWritable n then .key (toString n)
    else .key "<unprintable int object>"
  | .bool b => .index (if b then 1 else 0)
  | v => .key v.literal

/-- What can be wrong with a value in its place. -/
inductive Complaint where
  | missing
  | extraForbidden
  | invalidKey
  | stringType
  /-- The text does not consist of characters. -/
  | stringUnicode
  | stringTooShort
  | intType
  | intParsing
  | intFromFloat
  | intParsingSize
  | finiteNumber
  | greaterThan (bound : Int)
  | greaterThanEqual (bound : Int)
  | lessThanEqual (bound : Int)
  /-- The value is none of a few words. -/
  | enumeration (words : String)
  | tupleType
  /-- The value is no map, where the record `name` was expected. -/
  | modelType (name : String)
  /-- The fields do not go together. -/
  | rule (text : String)
deriving DecidableEq, Repr

def Complaint.tag : Complaint → String
  | missing => "missing"
  | extraForbidden => "extra_forbidden"
  | invalidKey => "invalid_key"
  | stringType => "string_type"
  | stringUnicode => "string_unicode"
  | stringTooShort => "string_too_short"
  | intType => "int_type"
  | intParsing => "int_parsing"
  | intFromFloat => "int_from_float"
  | intParsingSize => "int_parsing_size"
  | finiteNumber => "finite_number"
  | greaterThan _ => "greater_than"
  | greaterThanEqual _ => "greater_than_equal"
  | lessThanEqual _ => "less_than_equal"
  | enumeration _ => "enum"
  | tupleType => "tuple_type"
  | modelType _ => "model_type"
  | rule _ => "value_error"

def Complaint.text : Complaint → String
  | missing => "Field required"
  | extraForbidden => "Extra inputs are not permitted"
  | invalidKey => "Keys should be strings"
  | stringType => "Input should be a valid string"
  | stringUnicode =>
      "Input should be a valid string, unable to parse raw data as a unicode string"
  | stringTooShort => "String should have at least 1 character"
  | intType => "Input should be a valid integer"
  | intParsing => "Input should be a valid integer, unable to parse string as an integer"
  | intFromFloat => "Input should be a valid integer, got a number with a fractional part"
  | intParsingSize => "Unable to parse input string as an integer, exceeded maximum size"
  | finiteNumber => "Input should be a finite number"
  | greaterThan bound => s!"Input should be greater than {bound}"
  | greaterThanEqual bound => s!"Input should be greater than or equal to {bound}"
  | lessThanEqual bound => s!"Input should be less than or equal to {bound}"
  | enumeration words => s!"Input should be {words}"
  | tupleType => "Input should be a valid tuple"
  | modelType name => s!"Input should be a valid dictionary or instance of {name}"
  | rule text => s!"Value error, {text}"

/-- A fault and where it is. -/
structure Issue where
  path : List PathStep
  complaint : Complaint
deriving DecidableEq, Repr

/-- The same fault seen from one step further out. -/
def Issue.under (step : PathStep) (i : Issue) : Issue := { i with path := step :: i.path }

/-- A value of the right shape, or all faults in order. -/
abbrev Checked (α : Type) := Except (List Issue) α

namespace Checked

variable {α β : Type}

/-- A single fault right here. -/
def fail (c : Complaint) : Checked α := .error [⟨[], c⟩]

def issues : Checked α → List Issue
  | .ok _ => []
  | .error is => is

/-- The same answer seen from one step further out. -/
def under (step : PathStep) : Checked α → Checked α
  | .ok a => .ok a
  | .error is => .error (is.map (Issue.under step))

/-- Two answers together, with the faults of both. -/
def both : Checked α → Checked β → Checked (α × β)
  | .ok a, .ok b => .ok (a, b)
  | x, y => .error (x.issues ++ y.issues)

/-- Check each item in its position; `first` is the position of the head. -/
def each (check : Value → Checked α) (first : Nat := 0) : List Value → Checked (List α)
  | [] => .ok []
  | v :: vs =>
    match both (under (.index first) (check v)) (each check (first + 1) vs) with
    | .ok (a, as) => .ok (a :: as)
    | .error is => .error is

/-- The complaint about a key that a record with the given fields does not know. -/
def unknownKey? (known : List String) : Value → Option Issue
  | .text s => if s ∈ known then none else some ⟨[.key s], .extraForbidden⟩
  | k => some ⟨[.ofKey k], .invalidKey⟩

/-- There is no key but the known ones. -/
def noOtherKeys (known : List String) (entries : List (Value × Value)) : Checked Unit :=
  match entries.filterMap fun e ↦ unknownKey? known e.1 with
  | [] => .ok ()
  | is => .error is

/-- The answer of a record, which is a single fault if one of its keys does not consist of
characters. -/
def withKeys (entries : List (Value × Value)) (answer : Checked α) : Checked α :=
  if entries.any fun e ↦ e.1 matches .broken _ then fail .stringUnicode else answer

/-- A field that has to be there. -/
def required (key : String) (check : Value → Checked α) (entries : List (Value × Value)) :
    Checked α :=
  under (.key key) <|
    match Value.field? key entries with
    | some v => check v
    | none => fail .missing

/-- A field that has a default. -/
def optional (key : String) (default : α) (check : Value → Checked α)
    (entries : List (Value × Value)) : Checked α :=
  under (.key key) <|
    match Value.field? key entries with
    | some v => check v
    | none => .ok default

end Checked

/-! ## Texts -/

/-- The text of some bytes in UTF-8. -/
def decodedText? (content : List UInt8) : Option String := String.fromUTF8? content.toByteArray

/-- A text that consists of characters. Bytes may stand for one. -/
def lenientText : Value → Checked String
  | .text s => .ok s
  | .broken _ => .fail .stringUnicode
  | .bytes content =>
    match decodedText? content with
    | some s => .ok s
    | none => .fail .stringUnicode
  | _ => .fail .stringType

/-- A text that is not empty. -/
def nonEmptyText (v : Value) : Checked String :=
  match lenientText v with
  | .ok s => if s.isEmpty then .fail .stringTooShort else .ok s
  | .error is => .error is

/-! ## Integers

An integer is written in a field like this: white space around it does not matter, it may have one
sign, and a point with nothing but zeros behind it does no harm. Zeros in front of the first digit
that counts are passed over, and underscores among them. What is left are digits with single
underscores between them; after zeros there may be a minus sign in front of them, and an underscore
behind that. The sign and the digits together are at most `digitLimit` characters. -/

/-- A digit that can come first in a number. -/
private def isLeading (c : Char) : Bool := '1' ≤ c && c ≤ '9'

/-- A text without a point and at least one zero at its end. -/
def dropFraction (cs : List Char) : List Char :=
  let whole := cs.takeWhile (· != '.')
  let zeros := cs.drop (whole.length + 1)
  if !zeros.isEmpty && zeros.all (· == '0') then whole else cs

/-- A text from the first character that counts on. If there are only zeros and underscores, the
last of them counts. -/
def significant? : List Char → Option (List Char)
  | [] => none
  | c :: cs =>
    if isLeading c || c == '-' then some (c :: cs)
    else if c != '0' then none
    else
      match cs.dropWhile fun d ↦ d == '0' || d == '_' with
      | [] => some [cs.getLastD c]
      | d :: ds => if isLeading d || d == '-' then some (d :: ds) else none

/-- A text without its underscores, if all of them stand alone and inside. -/
def dropSingleUnderscores (cs : List Char) : List Char :=
  let parts := cs.splitOn '_'
  if parts.any List.isEmpty then cs else parts.flatten

/-- A number in its plain form: perhaps a minus sign, and digits without a zero in front. -/
def plainInteger (cs : List Char) : Except Number.LiteralFault Int :=
  let (negative, unsigned) := match cs with
    | '-' :: unsigned => (true, unsigned)
    | unsigned => (false, unsigned)
  let digits := unsigned.takeWhile Char.isDigit
  let value := digits.foldl (fun n d ↦ 10 * n + (d.toNat - '0'.toNat)) 0
  let isPlain := digits.head?.any isLeading || digits == ['0']
  if !isPlain then .error .malformed
  else if Number.digitLimit < digits.length + (cs.length - unsigned.length) then
    .error (.tooManyDigits digits.length)
  else if digits.length == unsigned.length then .ok (Number.withSign negative value)
  else .error .malformed

/-- An integer written in a field. -/
def fieldInteger (cs : List Char) : Except Number.LiteralFault Int :=
  let (sign, unsigned) := match Text.strip Text.isWhiteSpace cs with
    | '+' :: '-' :: _ => ([], [])
    | '+' :: unsigned => ([], unsigned)
    | '-' :: unsigned => (['-'], unsigned)
    | unsigned => ([], unsigned)
  match significant? (dropFraction unsigned) with
  | none => .error .malformed
  | some cs => plainInteger (sign ++ dropSingleUnderscores cs)

/-- An integer that a text spells. -/
def spelledInteger (s : String) : Checked Int :=
  match fieldInteger s.toList with
  | .ok n => .ok n
  | .error .malformed => .fail .intParsing
  | .error (.tooManyDigits _) => .fail .intParsingSize

/-- An integer, or something that is as good as one: a truth value, a double without a fraction, or
a text that spells an integer. -/
def lenientInteger : Value → Checked Int
  | .int n => .ok n
  | .bool b => .ok (if b then 1 else 0)
  | .real x =>
    match x.truncate? with
    | none => .fail .finiteNumber
    | some n =>
      if !x.isIntegral then .fail .intFromFloat
      else if -0x8000000000000000 < n ∧ n < 0x8000000000000000 then .ok n
      else .fail .intParsingSize
  | .text s => spelledInteger s
  | .broken _ => .fail .stringUnicode
  | .bytes content =>
    match decodedText? content with
    | some s => spelledInteger s
    | none => .fail .intParsing
  | _ => .fail .intType

end CallGate.Data
