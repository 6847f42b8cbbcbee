/-
# Machine words

Sizes and indices are kept in signed words of 64 bits; an integer that does not
fit into one is refused before it is used.
-/

namespace LossyConsensus

-- Powers are those of the core library, whatever algebra is imported beside it.
attribute [local instance (2000)] instPowNat

/-- Whether an integer fits into a signed word. -/
def isSignedWord (n : Int) : Bool :=
  -(2 ^ (63 : Nat)) ≤ n && n < 2 ^ (63 : Nat)

/-- Whether an integer fits into an unsigned word. -/
def isUnsignedWord (n : Int) : Bool :=
  0 ≤ n && n < 2 ^ (64 : Nat)

end LossyConsensus
