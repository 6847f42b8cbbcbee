/-
# Scalars

The arithmetic and the comparisons that protocols, networks and runs use.  All
of them are written over an arbitrary scalar type: doubles execute, and exact
rationals serve where a law holds only without rounding.

Comparisons are Boolean, because a double that is no number equals nothing and
is neither below nor above anything.
-/

namespace LossyConsensus

-- Powers are those of the core library, whatever algebra is imported beside it.
attribute [local instance (2000)] instPowNat

/-- Why a scalar has no integer part. -/
inductive NotFinite
  | infinite
  | notANumber
  deriving Repr, DecidableEq

/-- The text of a missing integer part. -/
def NotFinite.message : NotFinite → String
  | .infinite => "cannot convert float infinity to integer"
  | .notANumber => "cannot convert float NaN to integer"

/-- A type of scalars: arithmetic, the natural numbers, comparisons, and the
integer part, which drops the fraction towards zero.

A run asks in addition whether two scalars count as one and the same, which
equal ones do, and says of each scalar in which round and at which process it
arises, which only matters for scalars that are not equal to themselves. -/
class Scalar (R : Type) extends Add R, Sub R, Mul R, Div R, Neg R where
  ofNat : Nat → R
  eq : R → R → Bool
  lt : R → R → Bool
  le : R → R → Bool
  truncate : R → Except NotFinite Int
  same : R → R → Bool := eq
  arise : Nat → Int → R → R := fun _ _ value => value

namespace Scalar

variable {R : Type} [Scalar R]

/-- The scalar zero. -/
def zero : R := ofNat 0

/-- The sum of a list, added from left to right starting at zero. -/
def sum (values : List R) : R :=
  values.foldl (· + ·) zero

/-- The arithmetic mean, as the sum over the count. -/
def mean (values : List R) : R :=
  sum values / ofNat values.length

/-- The first value that no later value is strictly below. -/
def least (first : R) (rest : List R) : R :=
  rest.foldl (fun best value => if lt value best then value else best) first

/-- The first value that no later value is strictly above. -/
def greatest (first : R) (rest : List R) : R :=
  rest.foldl (fun best value => if lt best value then value else best) first

/-- The least value of a list. -/
def least? : List R → Option R
  | [] => none
  | first :: rest => some (least first rest)

/-- The greatest value of a list. -/
def greatest? : List R → Option R
  | [] => none
  | first :: rest => some (greatest first rest)

/-- The values without those that are the same as an earlier one. -/
def distinct (values : List R) : List R :=
  values.foldl (fun kept value => if kept.any (same value) then kept else kept ++ [value]) []

/-- The scalar that a draw stands for: its units of `2 ^ -53`. -/
def ofDraw (draw : Nat) : R :=
  ofNat draw / ofNat (2 ^ (53 : Nat))

/-- Whether a scalar lies between zero and one, the ends included. -/
def isProbability (value : R) : Bool :=
  le zero value && le value (ofNat 1)

end Scalar

/-- The integer part of a double. -/
def truncateFloat (value : Float) : Except NotFinite Int :=
  let word := value.toBits.toNat
  let field := word / 2 ^ (52 : Nat) % 2 ^ (11 : Nat)
  let fraction := word % 2 ^ (52 : Nat)
  if field == 2047 then
    .error (if fraction == 0 then .infinite else .notANumber)
  else if field < 1023 then .ok 0
  else
    let significand : Nat := 2 ^ (52 : Nat) + fraction
    let whole : Nat := if field < 1075 then significand / 2 ^ (1075 - field)
      else significand * 2 ^ (field - 1075)
    .ok (if word < 2 ^ (63 : Nat) then (whole : Int) else -(whole : Int))

/-- Doubles, with their own arithmetic and comparisons. -/
instance : Scalar Float where
  ofNat := Float.ofNat
  eq a b := a == b
  lt a b := decide (a < b)
  le a b := decide (a ≤ b)
  truncate := truncateFloat

end LossyConsensus
