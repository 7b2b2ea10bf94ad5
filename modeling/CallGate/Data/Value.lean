import CallGate.Data.Moment
import CallGate.Number.Literal
import CallGate.Number.Shortest
import CallGate.Text.Quoted

/-!
# Plain data

Descriptor tables, actions and arguments arrive as plain data whose shape nobody has checked yet. A
`Value` is such data: scalars, lists, and maps that keep the order of their entries. Numbers come in
two kinds, integers of any size and doubles, and truth values count as the integers zero and one
wherever a number is asked for. A text is made of characters; one that holds halves of surrogate
pairs is kept apart from the others.

Documents add bytes, moments, tuples and sets, and they can hold a collection that occurs within
itself. Such a value is written out to some depth, and is `cut` where it would begin again.

A value has a written form, used in messages, and can be read as an integer; both are here, as is
the notion of equality under which map keys are told apart.
-/

namespace CallGate.Data

open CallGate.Number CallGate.Text

inductive Value where
  | null
  | bool (b : Bool)
  | int (n : Int)
  | real (x : Binary64)
  | text (s : String)
  /-- A text with halves of surrogate pairs in it. -/
  | broken (points : List CodePoint)
  | bytes (content : List UInt8)
  | moment (m : Moment)
  | list (items : List Value)
  | tuple (items : List Value)
  | set (members : List Value)
  | map (entries : List (Value × Value))
  /-- A list or a map that this is already a part of. -/
  | cut (isMap : Bool)

namespace Value

instance : Inhabited Value := ⟨null⟩

/-- The text of some code points. -/
def ofPoints (ps : List CodePoint) : Value :=
  match CodePoint.chars? ps with
  | some cs => text (String.ofList cs)
  | none => broken ps

/-- The code points of a text. -/
def points? : Value → Option (List CodePoint)
  | text s => some (codePoints s)
  | broken ps => some ps
  | _ => none

/-! ## Written form -/

/-- Items between brackets, with commas between them. -/
private def enclosed (opening : String) (items : List String) (closing : String) : String :=
  opening ++ ", ".intercalate items ++ closing

mutual

/-- The written form of a value, as it stands in messages. -/
def literal : Value → String
  | null => "None"
  | bool b => if b then "True" else "False"
  | int n => toString n
  | real x => x.text
  | text s => quote s
  | broken ps => quotePoints ps
  | bytes content => quoteBytes content
  | moment m => m.text
  | list items => enclosed "[" (literals items) "]"
  | tuple items =>
    match literals items with
    | [item] => enclosed "(" [item] ",)"
    | items => enclosed "(" items ")"
  | set members =>
    match literals members with
    | [] => "set()"
    | members => enclosed "\x7b" members "\x7d"
  | map entries => enclosed "\x7b" (entryLiterals entries) "\x7d"
  | cut isMap => if isMap then "\x7b...\x7d" else "[...]"

def literals : List Value → List String
  | [] => []
  | v :: vs => literal v :: literals vs

def entryLiterals : List (Value × Value) → List String
  | [] => []
  | (k, v) :: es => (literal k ++ ": " ++ literal v) :: entryLiterals es

end

/-- Half of a surrogate pair where only characters can stand: a replacement character for each of
the three bytes that it would take. -/
private def replaced : CodePoint → List Char
  | .char c => [c]
  | .surrogate _ => ['\ufffd', '\ufffd', '\ufffd']

/-- The form of a value for readers: a text stands for itself, and so does a moment. -/
def display : Value → String
  | text s => s
  | broken ps => String.ofList (ps.flatMap replaced)
  | moment m => m.display
  | v => v.literal

mutual

/-- Whether a value can be written down: no integer in it has more digits than can be written. -/
def isWritable : Value → Bool
  | int n => Number.isWritable n
  | list items | tuple items | set items => areWritable items
  | map entries => entriesAreWritable entries
  | _ => true

def areWritable : List Value → Bool
  | [] => true
  | v :: vs => v.isWritable && areWritable vs

def entriesAreWritable : List (Value × Value) → Bool
  | [] => true
  | (k, v) :: es => k.isWritable && v.isWritable && entriesAreWritable es

end

/-- The message that an integer has too many digits to be written. -/
def unwritableText : String :=
  s!"Exceeds the limit ({digitLimit} digits) for integer string conversion; " ++
    "use sys.set_int_max_str_digits() to increase the limit"

/-- The name of the kind of a value. -/
def kindName : Value → String
  | null => "NoneType"
  | bool _ => "bool"
  | int _ => "int"
  | real _ => "float"
  | text _ | broken _ => "str"
  | bytes _ => "bytes"
  | moment m => if m.time.isSome then "datetime.datetime" else "datetime.date"
  | list _ => "list"
  | tuple _ => "tuple"
  | set _ => "set"
  | map _ => "dict"
  | cut isMap => if isMap then "dict" else "list"

/-- Whether a value counts as true: it is neither nothing nor zero nor empty. -/
def isTruthy : Value → Bool
  | null => false
  | bool b => b
  | int n => n != 0
  | real x => x.toInt? != some 0
  | text s => !s.isEmpty
  | bytes content => !content.isEmpty
  | list items | tuple items | set items => !items.isEmpty
  | map entries => !entries.isEmpty
  | broken _ | moment _ | cut _ => true

/-! ## Equality -/

/-- The integer that a number is, when it is one. -/
def integer? : Value → Option Int
  | bool b => some (if b then 1 else 0)
  | int n => some n
  | real x => x.toInt?
  | _ => none

/-- Whether a value is a double that is not a number. -/
def isNaN : Value → Bool
  | real .nan => true
  | _ => false

mutual

/-- Equality of values: numbers are compared by what they stand for, maps and sets without regard
to order, and a double that is not a number equals nothing. -/
def equal : Value → Value → Bool
  | null, null => true
  | text s, text t => s == t
  | broken ps, broken qs => ps == qs
  | bytes bs, bytes cs => bs == cs
  | moment m, moment n => m.same n
  | list vs, list ws | tuple vs, tuple ws => sameItems vs ws
  | set vs, set ws => vs.length == ws.length && sameMembers vs ws
  | map es, map fs => es.length == fs.length && sameEntries es fs
  | real x, real y => x.compare? y == some .eq
  | v, w =>
    match v.integer?, w.integer? with
    | some m, some n => m == n
    | _, _ => false

/-- Equality inside a collection, where also a double that is not a number equals itself. -/
def sameItems : List Value → List Value → Bool
  | [], [] => true
  | v :: vs, w :: ws => (equal v w || (v.isNaN && w.isNaN)) && sameItems vs ws
  | _, _ => false

def sameMembers : List Value → List Value → Bool
  | [], _ => true
  | v :: vs, ws => ws.any (equal v) && sameMembers vs ws

def sameEntries : List (Value × Value) → List (Value × Value) → Bool
  | [], _ => true
  | (k, v) :: es, fs =>
    fs.any (fun f ↦ equal k f.1 && (equal v f.2 || (v.isNaN && f.2.isNaN))) && sameEntries es fs

end

/-- Whether two values are the same where they stand in a collection. -/
def same (v w : Value) : Bool := v.equal w || (v.isNaN && w.isNaN)

/-- Put an entry into a map. A key that is there already keeps its place. -/
def insert (key value : Value) : List (Value × Value) → List (Value × Value)
  | [] => [(key, value)]
  | (k, v) :: es => if key.equal k then (k, value) :: es else (k, v) :: insert key value es

/-- The value under a text key. -/
def field? (key : String) : List (Value × Value) → Option Value
  | [] => none
  | (text k, v) :: es => if k = key then some v else field? key es
  | _ :: es => field? key es

end Value

/-! ## Integers -/

/-- Whether an integer fits into a word of 64 bits. -/
def fitsWord (n : Int) : Bool := -0x8000000000000000 ≤ n && n < 0x8000000000000000

/-- Why a value cannot be read as an integer. -/
inductive IntegerFault where
  /-- The text is no integer literal of the given base; base 0 stands for a literal that names its
  base. The text is given as it is shown. -/
  | literal (base : Nat) (shown : String)
  /-- The text has more digits than can be read. -/
  | tooManyDigits (count : Nat)
  /-- The value is no number and no text. -/
  | kind (name : String)
  | infinite
  | notANumber
deriving DecidableEq, Repr

/-- The number of characters after which a quoted literal is cut off. -/
def IntegerFault.shownLength : Nat := 200

def IntegerFault.text : IntegerFault → String
  | literal base shown =>
      let start := String.ofList (shown.toList.take shownLength)
      s!"invalid literal for int() with base {base}: {start}"
  | tooManyDigits count =>
      s!"Exceeds the limit ({digitLimit} digits) for integer string conversion: " ++
        s!"value has {count} digits; use sys.set_int_max_str_digits() to increase the limit"
  | kind name =>
      "int() argument must be a string, a bytes-like object or a real number, not " ++ s!"'{name}'"
  | infinite => "cannot convert float infinity to integer"
  | notANumber => "cannot convert float NaN to integer"

/-- The fault of some code points that are no integer literal. -/
def IntegerFault.ofLiteral (base : Nat) (ps : List CodePoint) : LiteralFault → IntegerFault
  | .malformed => literal base (quotePoints ps)
  | .tooManyDigits count => tooManyDigits count

/-- Read code points as an integer literal. -/
def readPoints (base : Nat) (ps : List CodePoint) : Except IntegerFault Int :=
  (readInteger base (ps.map CodePoint.shown)).mapError (.ofLiteral base ps)

/-- Read a value as an integer: a fraction is cut off, a text has to be a decimal literal. -/
def Value.toInteger : Value → Except IntegerFault Int
  | bool b => .ok (if b then 1 else 0)
  | int n => .ok n
  | real x =>
    match x.truncate? with
    | some n => .ok n
    | none => .error (if x = .nan then .notANumber else .infinite)
  | text s => readPoints 10 (codePoints s)
  | broken ps => readPoints 10 ps
  | v => .error (.kind v.kindName)

end CallGate.Data
