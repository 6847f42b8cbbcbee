/-
# Laws of scalars

What the comparisons of a scalar type have to do with each other, as far as a
run depends on it.  Arithmetic is not mentioned beyond zero and one: doubles
round, and nothing here asks them not to.

A scalar is a number if it equals itself.  The numbers are ordered like a line;
a scalar that is no number is neither below nor above anything.
-/

import LossyConsensus.Scalar

namespace LossyConsensus

-- Powers are those of the core library, whatever algebra is imported beside it.
attribute [local instance (2000)] instPowNat

namespace Scalar

variable {R : Type} [Scalar R]

/-- Whether a scalar is a number. -/
def IsNumber (value : R) : Prop :=
  eq value value = true

/-- Whether a scalar has an integer part. -/
def IsFinite (value : R) : Prop :=
  ∃ whole, truncate value = .ok whole

end Scalar

open Scalar in
/-- Scalars whose comparisons agree with each other.  A finite scalar is a
number, numbers stay as they arise, and every draw stands for less than one. -/
class LawfulScalar (R : Type) [Scalar R] : Prop where
  le_trans {a b c : R} : le a b = true → le b c = true → le a c = true
  lt_of_lt_of_le {a b c : R} : lt a b = true → le b c = true → lt a c = true
  le_of_lt {a b : R} : lt a b = true → le a b = true
  le_of_not_lt {a b : R} : IsNumber a → IsNumber b → lt b a = false → le a b = true
  not_lt_of_le {a b : R} : le a b = true → lt b a = false
  isNumber_of_isFinite {a : R} : IsFinite a → IsNumber a
  arise_of_isNumber {a : R} (round : Nat) (process : Int) :
    IsNumber a → arise round process a = a
  isFinite_zero : IsFinite (zero : R)
  isFinite_one : IsFinite (ofNat 1 : R)
  zero_lt_one : lt (zero : R) (ofNat 1) = true
  one_sub_zero_ne_zero : eq (ofNat 1 - zero : R) zero = false
  ofDraw_lt_one {draw : Nat} : draw < 2 ^ (53 : Nat) → lt (ofDraw draw : R) (ofNat 1) = true

end LossyConsensus
