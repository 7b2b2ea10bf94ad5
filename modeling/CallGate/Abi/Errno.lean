import CallGate.Data.Value

/-!
# Error numbers

The error numbers that calls return, by name. They are consecutive from zero, so a list of the names
in order is all there is to know.
-/

namespace CallGate.Abi

/-- The names of the error numbers; the position of a name is its number. -/
def errnoNames : List String :=
  [
    "SUCCESS", "TOOBIG", "ACCES", "ADDRINUSE", "ADDRNOTAVAIL", "AFNOSUPPORT", "AGAIN", "ALREADY",
    "BADF", "BADMSG", "BUSY", "CANCELED", "CHILD", "CONNABORTED", "CONNREFUSED", "CONNRESET",
    "DEADLK", "DESTADDRREQ", "DOM", "DQUOT", "EXIST", "FAULT", "FBIG", "HOSTUNREACH", "IDRM",
    "ILSEQ", "INPROGRESS", "INTR", "INVAL", "IO", "ISCONN", "ISDIR", "LOOP", "MFILE", "MLINK",
    "MSGSIZE", "MULTIHOP", "NAMETOOLONG", "NETDOWN", "NETRESET", "NETUNREACH", "NFILE", "NOBUFS",
    "NODEV", "NOENT", "NOEXEC", "NOLCK", "NOLINK", "NOMEM", "NOMSG", "NOPROTOOPT", "NOSPC",
    "NOSYS", "NOTCONN", "NOTDIR", "NOTEMPTY", "NOTRECOVERABLE", "NOTSOCK", "NOTSUP", "NOTTY",
    "NXIO", "OVERFLOW", "OWNERDEAD", "PERM", "PIPE", "PROTO", "PROTONOSUPPORT", "PROTOTYPE",
    "RANGE", "ROFS", "SPIPE", "SRCH", "STALE", "TIMEDOUT", "TXTBSY", "XDEV", "NOTCAPABLE"
  ]

namespace Errno

/-- All names with their numbers. -/
def all : List (String × Nat) := errnoNames.zipIdx

/-- The number of a name, which has to be exact. -/
def ofName? (name : String) : Option Nat := errnoNames.idxOf? name

/-- Why a value is the name of no error number. -/
inductive NameFault where
  | unknown (shown : String)
  /-- A value of the given kind cannot be looked up at all. -/
  | unhashable (kind : String)
deriving DecidableEq, Repr

def NameFault.text : NameFault → String
  | unknown shown => shown
  | unhashable kind => s!"unhashable type: '{kind}'"

/-- The number of the name that a value is. -/
def named (v : Data.Value) : Except NameFault Nat :=
  match v with
  | .list _ | .map _ | .set _ | .cut _ => .error (.unhashable v.kindName)
  | .text name => (ofName? name).elim (.error (.unknown v.literal)) .ok
  | v => .error (.unknown v.literal)

/-- The message that a value is no error number. -/
def unknownText (v : Data.Value) : String := s!"{v.literal} is not a valid Errno"

/-- The name of a number. -/
def name? (code : Nat) : Option String := errnoNames[code]?

/-- The error number that a value stands for, with its name. -/
def ofValue? (v : Data.Value) : Option (UInt16 × String) :=
  match v.integer? with
  | some (.ofNat code) => (name? code).map fun name ↦ (UInt16.ofNat code, name)
  | _ => none

example : all.length = 77 := by decide

end Errno

end CallGate.Abi
