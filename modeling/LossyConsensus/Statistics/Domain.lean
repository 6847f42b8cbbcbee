/-
# Functions with a limited domain

Square roots, logarithms and quotients of doubles, and the doubles of integers.
Outside their domain they have no value; a double that is no number is passed
on.
-/

import LossyConsensus.Decimal.Quotient

namespace LossyConsensus.Statistics

/-- No number. -/
def undefined : Float := 0.0 / 0.0

/-- Infinity. -/
def infinity : Float := 1.0 / 0.0

/-- A function was asked for a value outside its domain. -/
inductive DomainError
  | negativeRoot
  | nonPositiveLogarithm
  | zeroDivisor
  | largeInteger
  deriving Repr, DecidableEq

/-- The text of a domain error. -/
def DomainError.message : DomainError → String
  | .negativeRoot => "math domain error"
  | .nonPositiveLogarithm => "math domain error"
  | .zeroDivisor => "float division by zero"
  | .largeInteger => "int too large to convert to float"

/-- The square root of a number that is not negative. -/
def root (value : Float) : Except DomainError Float :=
  if value < 0.0 then .error .negativeRoot else .ok (Float.sqrt value)

/-- The natural logarithm of a positive number. -/
def logarithm (value : Float) : Except DomainError Float :=
  if value ≤ 0.0 then .error .nonPositiveLogarithm else .ok (Float.log value)

/-- A number that is given as a real or as an integer of any size. -/
inductive Amount
  | real (value : Float)
  | integer (value : Int)
  deriving Repr

/-- The double nearest to an amount. -/
def Amount.toReal : Amount → Except DomainError Float
  | .real value => .ok value
  | .integer value =>
      match Decimal.nearestInteger? value with
      | some value => .ok value
      | none => .error .largeInteger

/-- Whether an amount is at most zero. -/
def Amount.isAtMostZero : Amount → Bool
  | .real value => value ≤ 0.0
  | .integer value => value ≤ 0

/-- The quotient by a number that is not zero. -/
def quotient (dividend divisor : Float) : Except DomainError Float :=
  if divisor == 0.0 then .error .zeroDivisor else .ok (dividend / divisor)

end LossyConsensus.Statistics
