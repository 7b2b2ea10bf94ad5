import CallGate.Data.Value

/-!
# Positions

A position in a list is an integer. One that is negative counts from the end, so that -1 is the last
place. A position may miss the list, and one that does not even fit into a word is refused without
looking.
-/

namespace CallGate.Data

/-- Why a position is no place in a list. -/
inductive PositionFault where
  | outOfRange
  /-- The position does not fit into a word. -/
  | tooLarge
deriving DecidableEq, Repr

/-- The message about a position; `subject` names the kind of list. -/
def PositionFault.text (subject : String) : PositionFault → String
  | outOfRange => subject ++ "index out of range"
  | tooLarge => "cannot fit 'int' into an index-sized integer"

/-- The place that a position means in a list of some length. -/
def placeAt (length : Nat) (position : Int) : Except PositionFault (Fin length) :=
  let fromStart := if position < 0 then position + length else position
  if !fitsWord position then .error .tooLarge
  else if h : 0 ≤ fromStart ∧ fromStart.toNat < length then .ok ⟨fromStart.toNat, h.2⟩
  else .error .outOfRange

/-- The item at a position. -/
def itemAt {α : Type} (items : List α) (position : Int) : Except PositionFault α :=
  (placeAt items.length position).map (items[·])

example : (itemAt [10, 20, 30] (-1) matches .ok 30) ∧ (itemAt [10] 1 matches .error .outOfRange) ∧
    (itemAt [10] (0x8000000000000000) matches .error .tooLarge) := ⟨rfl, rfl, rfl⟩

end CallGate.Data
