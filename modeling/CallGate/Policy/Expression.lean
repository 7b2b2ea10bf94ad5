import CallGate.Policy.HostFunction

/-!
# Arithmetic host functions

Most conditions on arguments are a few comparisons. An `Expression` writes one down, so that a host
function can be given by a formula. Its values are plain data of any kind, like the arguments
themselves; truth values are numbers, and every value counts as true or false. `and` and `or` stop
early and give the operand that decided, and a formula may leave a mark or give up.
-/

namespace CallGate.Policy

open CallGate.Data

/-- Operations on two values. -/
inductive BinaryOp where
  | add | sub | mul | bitAnd | bitOr | bitXor | eq | ne | lt | le | gt | ge
deriving DecidableEq, Repr

/-- Whether two values stand to each other in one of some ways. -/
def isOrdered (symbol : String) (wanted : List Ordering) (v w : Value) :
    Except OperationFault Value := do
  match ← v.compare symbol w with
  | some o => return .bool (wanted.contains o)
  | none => return .bool false

/-- The result of an operation, if it is one for these values. -/
def BinaryOp.apply : BinaryOp → Value → Value → Except OperationFault Value
  | add, v, w => v.add w
  | sub, v, w => v.sub w
  | mul, v, w => v.mul w
  | bitAnd, v, w => v.bitAnd w
  | bitOr, v, w => v.bitOr w
  | bitXor, v, w => v.bitXor w
  | eq, v, w => .ok (.bool (v.equal w))
  | ne, v, w => .ok (.bool (!v.equal w))
  | lt, v, w => isOrdered "<" [.lt] v w
  | le, v, w => isOrdered "<=" [.lt, .eq] v w
  | gt, v, w => isOrdered ">" [.gt] v w
  | ge, v, w => isOrdered ">=" [.gt, .eq] v w

/-- A formula over the arguments of a call. -/
inductive Expression where
  | value (v : Value)
  /-- The argument at a position; a negative position counts from the end. -/
  | arg (position : Value)
  /-- The sum of all arguments. -/
  | sum
  /-- Leave a mark, then go on. -/
  | mark (label : Value) (e : Expression)
  /-- Give up with a message. -/
  | raise (message : Value)
  | not (e : Expression)
  | and (left right : Expression)
  | or (left right : Expression)
  | binary (op : BinaryOp) (left right : Expression)

namespace Expression

instance : Inhabited Expression := ⟨value .null⟩

/-- An evaluation that gathers marks and may fail. -/
abbrev Eval := EStateM HostFault (List Value)

/-- The argument at a position, which has to be an integer. -/
def argument (args : List Value) (position : Value) : Except HostFault Value :=
  match Numeric.ofValue? position with
  | some (.int n) => (itemAt args n).mapError .position
  | _ => .error (.positionKind position.kindName)

/-- An answer as an evaluation. -/
def ofExcept {α : Type} (x : Except HostFault α) : Eval α :=
  match x with
  | .ok a => return a
  | .error fault => throw fault

/-- The value of a formula on some arguments. -/
def eval (args : List Value) : Expression → Eval Value
  | value v => return v
  | arg position => ofExcept (argument args position)
  | sum => ofExcept ((args.foldlM Value.add (.int 0)).mapError .operation)
  | mark label e => do
    modify (· ++ [label])
    e.eval args
  | raise message => throw (.raised ⟨.valueError, message.display⟩)
  | not e => do
    return .bool (!(← e.eval args).isTruthy)
  | and left right => do
    let l ← left.eval args
    if l.isTruthy then right.eval args else return l
  | or left right => do
    let l ← left.eval args
    if l.isTruthy then return l else right.eval args
  | binary op left right => do
    let l ← left.eval args
    let r ← right.eval args
    ofExcept ((op.apply l r).mapError .operation)

/-- The response of the function that a formula gives: whether its value counts as true. -/
def respond (e : Expression) (args : List Value) : Response :=
  match e.eval args [] with
  | .ok v marks => ⟨marks, .ok v.isTruthy⟩
  | .error fault marks => ⟨marks, .error fault⟩

end Expression

end CallGate.Policy
