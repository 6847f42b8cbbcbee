/-
# Quotients of integers

The double nearest to a quotient of two integers, of which neither need be a
double itself.
-/

import LossyConsensus.Decimal.Binary64

namespace LossyConsensus.Decimal

-- Powers are those of the core library, whatever algebra is imported beside it.
attribute [local instance (2000)] instPowNat

/-- A quotient beyond the range of doubles. -/
inductive QuotientError
  | tooLarge
  deriving Repr, DecidableEq

/-- The text of a missing quotient. -/
def QuotientError.message : QuotientError → String
  | .tooLarge => "integer division result too large for a float"

/-- The exponent of the leading binary digit of the positive quotient
`num / den`. -/
def leadingBit (num den : Nat) : Int :=
  let estimate : Int := (num.log2 : Int) - (den.log2 : Int)
  let (scaled, unit) := if 0 ≤ estimate then (num, den * 2 ^ estimate.toNat)
    else (num * 2 ^ (-estimate).toNat, den)
  if unit ≤ scaled then estimate else estimate - 1

/-- The nearest `significand * 2 ^ exponent` to the positive quotient
`num / den`, with the digits of a double. -/
def binaryQuotient (num den : Nat) : Nat × Int :=
  let exponent := max (leadingBit num den - 52) (-1074)
  let significand := if 0 ≤ exponent then roundDiv num (den * 2 ^ exponent.toNat)
    else roundDiv (num * 2 ^ (-exponent).toNat) den
  (significand, exponent)

/-- The double nearest to the quotient of integers, the divisor not being
zero. -/
def integerQuotient (num den : Int) : Except QuotientError Float :=
  if num == 0 then .ok 0.0
  else
    let (significand, exponent) := binaryQuotient num.natAbs den.natAbs
    if 1024 < (significand.log2 : Int) + exponent + 1 then .error .tooLarge
    else
      let magnitude := Float.scaleB (Float.ofNat significand) exponent
      .ok (if (num < 0) == (den < 0) then magnitude else -magnitude)

/-- Whether the quotient of an integer by two is in the range of doubles. -/
def hasHalf (n : Int) : Bool :=
  match integerQuotient n 2 with
  | .ok _ => true
  | .error _ => false

/-- The double nearest to an integer, if it is in the range of doubles. -/
def nearestInteger? (n : Int) : Option Float :=
  match integerQuotient n 1 with
  | .ok value => some value
  | .error _ => none

end LossyConsensus.Decimal
