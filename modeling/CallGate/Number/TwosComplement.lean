/-!
# Bits of integers of any size

An integer is taken as an endless row of bits in two's complement: a natural number has its own bits
and zeros above them, and `-n - 1` has the complement of the bits of `n`. The three operations work
bit by bit; each combination of signs comes down to an operation on natural numbers.
-/

namespace CallGate.Number

/-- The bits of `m` that are not bits of `n`. -/
def bitDifference (m n : Nat) : Nat := m ^^^ (m &&& n)

def bitAnd : Int → Int → Int
  | .ofNat m, .ofNat n => .ofNat (m &&& n)
  | .ofNat m, .negSucc n => .ofNat (bitDifference m n)
  | .negSucc m, .ofNat n => .ofNat (bitDifference n m)
  | .negSucc m, .negSucc n => .negSucc (m ||| n)

def bitOr : Int → Int → Int
  | .ofNat m, .ofNat n => .ofNat (m ||| n)
  | .ofNat m, .negSucc n => .negSucc (bitDifference n m)
  | .negSucc m, .ofNat n => .negSucc (bitDifference m n)
  | .negSucc m, .negSucc n => .negSucc (m &&& n)

def bitXor : Int → Int → Int
  | .ofNat m, .ofNat n => .ofNat (m ^^^ n)
  | .ofNat m, .negSucc n => .negSucc (m ^^^ n)
  | .negSucc m, .ofNat n => .negSucc (m ^^^ n)
  | .negSucc m, .negSucc n => .ofNat (m ^^^ n)

example : bitAnd (-2) 7 = 6 ∧ bitOr (-8) 3 = -5 ∧ bitXor (-1) 5 = -6 := by decide

end CallGate.Number
