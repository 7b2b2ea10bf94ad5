import CallGate.Data.Value
import CallGate.Number.TwosComplement

/-!
# Operations on plain data

What can be done with two values of unknown kinds. Numbers are added, multiplied and compared
whatever their kinds; an integer that meets a double becomes one first. Texts and lists can be put
together, repeated and compared item by item, and two maps can be united. Everything else is a fault
that names the operation and the kinds.
-/

namespace CallGate.Data

open CallGate.Number CallGate.Text

/-- Why an operation has no result. -/
inductive OperationFault where
  /-- The operation is not for values of these kinds. -/
  | operands (symbol left right : String)
  /-- Something else was to be put behind a text or a list. -/
  | concatenation (kind other : String)
  /-- A text or a list was to be repeated, but not by an integer. -/
  | repetition (kind : String)
  /-- Values of these kinds have no order. -/
  | order (symbol left right : String)
  /-- An integer is too large for a double. -/
  | conversion
  /-- A number of repetitions does not fit into a word. -/
  | index
  /-- The result would be too long. -/
  | size
deriving DecidableEq, Repr

def OperationFault.text : OperationFault → String
  | operands symbol left right =>
      s!"unsupported operand type(s) for {symbol}: '{left}' and '{right}'"
  | concatenation kind other => s!"can only concatenate {kind} (not \"{other}\") to {kind}"
  | repetition kind => s!"can't multiply sequence by non-int of type '{kind}'"
  | order symbol left right =>
      s!"'{symbol}' not supported between instances of '{left}' and '{right}'"
  | conversion => "int too large to convert to float"
  | index => "cannot fit 'int' into an index-sized integer"
  | size => ""

/-- A value as a number. -/
inductive Numeric where
  | int (n : Int)
  | real (x : Binary64)

namespace Numeric

def ofValue? : Value → Option Numeric
  | .bool b => some (int (if b then 1 else 0))
  | .int n => some (int n)
  | .real x => some (real x)
  | _ => none

/-- A number as a double. -/
def toReal : Numeric → Except OperationFault Binary64
  | int n =>
    match Binary64.ofInt? n with
    | some x => .ok x
    | none => .error .conversion
  | real x => .ok x

/-- An integer as an exact quantity, which need not be a double. -/
def exact : Numeric → Binary64
  | int n => .finite (n < 0) n.natAbs 0
  | real x => x

end Numeric

namespace Value

/-- The fault of an operation that is not for these two values. -/
def operandsFault (symbol : String) (v w : Value) : OperationFault :=
  .operands symbol v.kindName w.kindName

/-! ## Arithmetic -/

/-- An operation on two numbers. -/
def arithmetic (symbol : String) (onIntegers : Int → Int → Int)
    (onReals : Binary64 → Binary64 → Binary64) (v w : Value) : Except OperationFault Value :=
  match Numeric.ofValue? v, Numeric.ofValue? w with
  | some (.int m), some (.int n) => .ok (.int (onIntegers m n))
  | some a, some b => do
    let x ← a.toReal
    let y ← b.toReal
    return .real (onReals x y)
  | _, _ => .error (operandsFault symbol v w)

/-- The sum of two numbers, or two texts or lists one after the other. -/
def add (v w : Value) : Except OperationFault Value :=
  match v, w with
  | list vs, list ws => .ok (list (vs ++ ws))
  | list _, w => .error (.concatenation v.kindName w.kindName)
  | v, w =>
    match v.points?, w.points? with
    | some ps, some qs => .ok (ofPoints (ps ++ qs))
    | some _, none => .error (.concatenation v.kindName w.kindName)
    | none, _ => arithmetic "+" (· + ·) Binary64.add v w

def sub : Value → Value → Except OperationFault Value :=
  arithmetic "-" (· - ·) Binary64.sub

/-- The greatest length of a text or a list that is made by repetition. -/
def lengthLimit : Nat := 0x10000000

/-- A list of items repeated. -/
private def repeatedItems {α : Type} (items : List α) (count : Value) :
    Except OperationFault (List α) :=
  match Numeric.ofValue? count with
  | some (.int n) =>
    if !fitsWord n then .error .index
    else if items.isEmpty then .ok []
    else if lengthLimit < items.length * n.toNat then .error .size
    else .ok (List.replicate n.toNat items).flatten
  | _ => .error (.repetition count.kindName)

/-- A text or a list repeated, and nothing for other values. -/
def repeat? (v count : Value) : Option (Except OperationFault Value) :=
  match v with
  | list vs => some (list <$> repeatedItems vs count)
  | v => v.points?.map fun ps ↦ ofPoints <$> repeatedItems ps count

/-- The product of two numbers, or a text or a list as often as a number says. -/
def mul (v w : Value) : Except OperationFault Value :=
  match v.repeat? w with
  | some r => r
  | none =>
    match w.repeat? v with
    | some r => r
    | none => arithmetic "*" (· * ·) Binary64.mul v w

/-! ## Bits -/

/-- An operation on the bits of two integers. Of two truth values it is a truth value. -/
def bitwise (symbol : String) (onBits : Int → Int → Int) (v w : Value) :
    Except OperationFault Value :=
  match v, w with
  | bool _, bool _ =>
    .ok (bool (onBits (if v.isTruthy then 1 else 0) (if w.isTruthy then 1 else 0) != 0))
  | v, w =>
    match Numeric.ofValue? v, Numeric.ofValue? w with
    | some (.int m), some (.int n) => .ok (int (onBits m n))
    | _, _ => .error (operandsFault symbol v w)

def bitAnd : Value → Value → Except OperationFault Value := bitwise "&" Number.bitAnd

/-- The bits of either of two integers, or the entries of either of two maps. -/
def bitOr : Value → Value → Except OperationFault Value
  | map es, map fs => .ok (map (fs.foldl (fun m e ↦ insert e.1 e.2 m) es))
  | v, w => bitwise "|" Number.bitOr v w

def bitXor : Value → Value → Except OperationFault Value := bitwise "^" Number.bitXor

/-! ## Order -/

/-- Compare lists of code points by the first difference. -/
def comparePoints : List CodePoint → List CodePoint → Ordering
  | [], [] => .eq
  | [], _ => .lt
  | _, [] => .gt
  | p :: ps, q :: qs => (p.compare q).then (comparePoints ps qs)

mutual

/-- How two values stand to each other; `nan` stands to no number. The fault names `symbol`. -/
def compare (symbol : String) (v w : Value) : Except OperationFault (Option Ordering) :=
  match v, w with
  | list vs, list ws => compareItems symbol vs ws
  | v, w =>
    match Numeric.ofValue? v, Numeric.ofValue? w, v.points?, w.points? with
    | some a, some b, _, _ => .ok (a.exact.compare? b.exact)
    | _, _, some ps, some qs => .ok (some (comparePoints ps qs))
    | _, _, _, _ => .error (.order symbol v.kindName w.kindName)

/-- Lists are compared by their first items that are not the same. -/
def compareItems (symbol : String) :
    List Value → List Value → Except OperationFault (Option Ordering)
  | [], [] => .ok (some .eq)
  | [], _ => .ok (some .lt)
  | _, [] => .ok (some .gt)
  | v :: vs, w :: ws => if v.same w then compareItems symbol vs ws else compare symbol v w

end

end Value

end CallGate.Data
