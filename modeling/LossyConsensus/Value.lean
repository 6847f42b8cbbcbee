/-
# Values of runs

The processes of a run pass values on, and a rule may ask how many different
values were received.  A double that is no number equals nothing, not even
itself, so a value of a run also says where it arose: what is handed on
unchanged stays one value however often it is received, while values that are
no numbers and arose apart are different ones.
-/

import LossyConsensus.Decimal.Shortest
import LossyConsensus.Scalar

namespace LossyConsensus

/-- The round in which a value arose, zero being the start, and the process
that computed it. -/
structure Origin where
  round : Nat
  process : Int
  deriving Repr, DecidableEq

/-- A value that processes hold and send. -/
structure Value where
  real : Float
  origin : Option Origin := none
  deriving Repr, Inhabited

namespace Value

/-- The value of a double, as yet without an origin. -/
def ofReal (real : Float) : Value :=
  { real }

/-- The text of a value. -/
def text (value : Value) : String :=
  Decimal.realText value.real

/-- Whether two values have one known origin. -/
def sameOrigin (a b : Value) : Bool :=
  a.origin.isSome && a.origin == b.origin

/-- A value with an origin, unless it has one already.  A number is told from
others by its size and needs none. -/
def arise (round : Nat) (process : Int) (value : Value) : Value :=
  if value.real == value.real || value.origin.isSome then value
  else { value with origin := some ⟨round, process⟩ }

end Value

/-- Values compute like doubles; what is computed has no origin yet. -/
instance : Scalar Value where
  add a b := .ofReal (a.real + b.real)
  sub a b := .ofReal (a.real - b.real)
  mul a b := .ofReal (a.real * b.real)
  div a b := .ofReal (a.real / b.real)
  neg a := .ofReal (-a.real)
  ofNat n := .ofReal (Float.ofNat n)
  eq a b := a.real == b.real
  lt a b := decide (a.real < b.real)
  le a b := decide (a.real ≤ b.real)
  truncate a := truncateFloat a.real
  same a b := a.real == b.real || a.sameOrigin b
  arise := Value.arise

end LossyConsensus
