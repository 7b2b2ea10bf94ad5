/-!
# Actions

What a policy can decide about a call: let it run, let it run and note it, have it return an error
number instead of running, or end the guest. Actions are ordered by severity. Two error numbers have
the same severity and still differ, so the order is partial.
-/

namespace CallGate.Policy

/-- A decision about a call. -/
inductive Action where
  | allow
  | log
  | returnErrno (errno : UInt16)
  | kill
deriving DecidableEq, Repr

namespace Action

/-- The action of a policy that names none. -/
def default : Action := kill

/-- The word for the kind of an action. -/
def kind : Action → String
  | allow => "allow"
  | log => "log"
  | returnErrno _ => "return_errno"
  | kill => "kill"

/-- The error number that an action carries. -/
def errno? : Action → Option UInt16
  | returnErrno errno => some errno
  | _ => none

def isAllow (a : Action) : Bool := a == allow

def isKill (a : Action) : Bool := a == kill

/-- The written form. -/
def text : Action → String
  | returnErrno errno => s!"return_errno({errno.toNat})"
  | a => a.kind

/-- The actions that have to be carried out: all but those that let a call run unnoticed. -/
def effective (actions : List Action) : List Action := actions.filter fun a ↦ !a.isAllow

/-! ## Severity -/

/-- The rank of an action; all error numbers share one. -/
def severity : Action → Nat
  | allow => 0
  | log => 1
  | returnErrno _ => 2
  | kill => 3

/-- How two actions stand to each other. -/
inductive Comparison where
  | less | equal | greater | incomparable
deriving DecidableEq, Repr

def Comparison.word : Comparison → String
  | less => "less"
  | equal => "equal"
  | greater => "greater"
  | incomparable => "incomparable"

/-- Compare two actions by severity. Only different error numbers cannot be compared. -/
def compare (a b : Action) : Comparison :=
  if a.severity < b.severity then .less
  else if b.severity < a.severity then .greater
  else if a.errno? = b.errno? then .equal
  else .incomparable

end Action

end CallGate.Policy
