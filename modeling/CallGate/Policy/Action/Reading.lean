import CallGate.Data.Issue
import CallGate.Policy.Action

/-!
# Reading actions

An action is written as a word, and an error number follows its word in parentheses: `allow`,
`kill`, `ret_errno(63)`. Three words announce an error number. Case does not matter, blanks may
stand around every part, and the number is an integer literal, whose base may be given by a prefix.
The pieces of that form are found by `Phrase.ofText?`, and `Action.parse` gives them their meaning.

An action can also come as a record of its kind and its error number.
-/

namespace CallGate.Policy

open CallGate.Data CallGate.Number CallGate.Text

/-- Why a number is no error number. -/
inductive ErrnoFault where
  | integer (fault : IntegerFault)
  | issues (issues : List Issue)
deriving DecidableEq, Repr

/-- A text or the written form of a value that is no action, and what was wrong with its error
number if that was the reason. -/
structure InvalidAction where
  spelling : List CodePoint
  reason : Option ErrnoFault := none
deriving DecidableEq, Repr

/-! ## Error numbers -/

/-- An integer within the range of error numbers. -/
def checkedErrno (n : Int) : Checked UInt16 :=
  if n < 0 then .fail (.greaterThanEqual 0)
  else if 65535 < n then .fail (.lessThanEqual 65535)
  else .ok (UInt16.ofNat n.toNat)

/-- The action that returns an error number. -/
def Action.ofErrno (n : Int) : Except ErrnoFault Action :=
  match Checked.under (.key "errno") (checkedErrno n) with
  | .ok errno => .ok (.returnErrno errno)
  | .error is => .error (.issues is)

/-- The action that returns an error number given as a value, of which a fraction is cut off. -/
def Action.returning (v : Value) : Except ErrnoFault Action :=
  match v.toInteger with
  | .ok n => Action.ofErrno n
  | .error fault => .error (.integer fault)

/-! ## Text -/

/-- The letters that words of actions are made of: the Latin ones, the underscore, and the four
other characters that are the same as a Latin letter when case is disregarded. -/
def isWordChar (c : Char) : Bool :=
  ('a' ≤ c && c ≤ 'z') || ('A' ≤ c && c ≤ 'Z') || c == '_' || c == '\u0130' || c == '\u0131' ||
    c == '\u017f' || c == '\u212a'

/-- The lower case of a letter of a word. The Kelvin sign is a capital K. -/
def lowerWordChar (c : Char) : Char :=
  if c = '\u212a' then 'k' else c.toLower

/-- The pieces of a written action: a word, and what stands between the parentheses behind it. -/
structure Phrase where
  word : List Char
  argument : Option (List Char)
deriving DecidableEq, Repr

/-- Take a text apart. The word is made of letters and not empty, at most one pair of parentheses
follows, and there is nothing but blanks between and around the parts. -/
def Phrase.ofText? (cs : List Char) : Option Phrase :=
  let cs := cs.dropWhile isBlank
  let word := cs.takeWhile isWordChar
  let rest := (cs.dropWhile isWordChar).dropWhile isBlank
  if word.isEmpty then none
  else
    match rest with
    | [] => some ⟨word, none⟩
    | '(' :: inner =>
      let argument := inner.takeWhile (· != ')')
      match inner.dropWhile (· != ')') with
      | ')' :: after =>
        if after.all isBlank then some ⟨word, some (strip isBlank argument)⟩ else none
      | _ => none
    | _ => none

/-- The words that announce an error number. -/
def errnoWords : List String := ["ret_err", "ret_errno", "return_errno"]

/-- The action that a lone word stands for. -/
def Action.ofWord? (word : String) : Option Action :=
  [Action.allow, .log, .kill].find? fun a ↦ a.kind == word

/-- An error number in parentheses. A base prefix makes it a literal that names its base. -/
def readErrno (ps : List CodePoint) : Except ErrnoFault Action :=
  let cs := ps.map CodePoint.shown
  let number := match splitBase? cs with
    | some (base, _) => (readInteger base cs).mapError (IntegerFault.ofLiteral 0 ps)
    | none => readPoints 10 ps
  match number with
  | .ok n => Action.ofErrno n
  | .error fault => .error (.integer fault)

/-- The action that a text spells. -/
def Action.parse (text : String) : Except InvalidAction Action :=
  match Phrase.ofText? text.toList with
  | none => .error ⟨codePoints text, none⟩
  | some phrase =>
    let word := String.ofList (phrase.word.map lowerWordChar)
    match phrase.argument with
    | none =>
      match Action.ofWord? word with
      | some a => .ok a
      | none => .error ⟨codePoints text, none⟩
    | some argument =>
      if word ∈ errnoWords ∧ argument ≠ [] then
        match readErrno (argument.map .char) with
        | .ok a => .ok a
        | .error fault => .error ⟨codePoints text, some fault⟩
      else
        .error ⟨codePoints text, none⟩

/-- What is wrong with the error number of a text with halves of surrogate pairs in it. Such a text
spells no action, and has an error number only if the halves are between its parentheses. -/
def brokenReason? (ps : List CodePoint) : Option ErrnoFault := do
  let phrase ← Phrase.ofText? (ps.map CodePoint.shown)
  let word := String.ofList (phrase.word.map lowerWordChar)
  let inner := (ps.dropWhile (· != .char '(')).drop 1
  let argument := strip (isBlank ·.shown) (inner.takeWhile (· != .char ')'))
  guard (word ∈ errnoWords ∧ argument ≠ [])
  match readErrno argument with
  | .ok _ => none
  | .error fault => some fault

/-- The action that a value spells; only a text can spell one. -/
def Action.ofSpelling : Value → Except InvalidAction Action
  | .text s => Action.parse s
  | .broken ps => .error ⟨ps, brokenReason? ps⟩
  | v => .error ⟨codePoints v.literal, none⟩

/-! ## Records -/

/-- The words for the kinds of actions, as they are listed in a complaint. -/
def kindWords : String := "'allow', 'log', 'return_errno' or 'kill'"

/-- The kind of an action in a record. -/
def checkedKind : Value → Checked String
  | .text s =>
    if s ∈ ["allow", "log", "return_errno", "kill"] then .ok s else .fail (.enumeration kindWords)
  | _ => .fail (.enumeration kindWords)

/-- The error number in a record; null stands for none. -/
def checkedErrnoField : Value → Checked (Option UInt16)
  | .null => .ok none
  | v =>
    match lenientInteger v with
    | .error is => .error is
    | .ok n => (checkedErrno n).map some

/-- The action of a kind and an error number, if they go together. -/
def Action.ofParts? (kind : String) : Option UInt16 → Option Action
  | some errno => if kind = "return_errno" then some (.returnErrno errno) else none
  | none => Action.ofWord? kind

/-- An action from a record of its kind and its error number. -/
def Action.ofValue : Value → Checked Action
  | .map fields =>
    let checked :=
      Checked.both (Checked.required "kind" checkedKind fields)
        (Checked.both (Checked.optional "errno" none checkedErrnoField fields)
          (Checked.noOtherKeys ["kind", "errno"] fields))
    match Checked.withKeys fields checked with
    | .error is => .error is
    | .ok (kind, errno, ()) =>
      match Action.ofParts? kind errno with
      | some a => .ok a
      | none => .fail (.rule "errno must be set for return_errno and only for return_errno")
  | _ => .fail (.modelType "Action")

end CallGate.Policy
