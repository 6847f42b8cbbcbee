/-
# Metrics of a state

How far the values of the processes lie apart, and whether they count as
equal.
-/

import LossyConsensus.Scalar

namespace LossyConsensus.Simulation

variable {R : Type} [Scalar R]

/-- The greatest value less the least one; zero without values. -/
def discrepancy : List R → R
  | [] => Scalar.zero
  | first :: rest => Scalar.greatest first rest - Scalar.least first rest

/-- Whether the values lie apart by no more than a tolerance. -/
def isConsensus (tolerance : R) (values : List R) : Bool :=
  Scalar.le (discrepancy values) tolerance

end LossyConsensus.Simulation
