/-
# Sampling configurations

How many runs are wanted, from which seed on, when a run counts as consensus,
and how many runs may be tried when a delivery model rejects some.
-/

import LossyConsensus.Value

namespace LossyConsensus.Sampling

/-- A request for runs.  Run `k` has the seed `seed + k`. -/
structure Config (R : Type) where
  repetitions : Int
  seed : Int
  tolerance : R
  workers : Int := 1
  multiplier : Int := 100
  deriving Repr, DecidableEq

/-- Why a configuration is refused. -/
inductive ConfigError (R : Type)
  | repetitions (count : Int)
  | tolerance (value : R)
  | workers (count : Int)
  | multiplier (count : Int)
  deriving Repr, DecidableEq

/-- The text of a configuration error. -/
def ConfigError.message : ConfigError Value → String
  | .repetitions count => "repetitions must be >= 1, got " ++ toString count
  | .tolerance value => "consensus_eps must be >= 0, got " ++ value.text
  | .workers count => "parallel_workers must be >= 1, got " ++ toString count
  | .multiplier count => "attempt_multiplier must be >= 1, got " ++ toString count

namespace Config

variable {R : Type} [Scalar R]

/-- The configuration, if every part of it is in range. -/
def check (config : Config R) : Except (ConfigError R) (Config R) :=
  if config.repetitions < 1 then .error (.repetitions config.repetitions)
  else if Scalar.lt config.tolerance Scalar.zero then .error (.tolerance config.tolerance)
  else if config.workers < 1 then .error (.workers config.workers)
  else if config.multiplier < 1 then .error (.multiplier config.multiplier)
  else .ok config

/-- How many runs may be tried, depending on whether a model rejects runs. -/
def budget (config : Config R) (rejects : Bool) : Nat :=
  if rejects then (config.multiplier * config.repetitions).toNat else config.repetitions.toNat

end Config

end LossyConsensus.Sampling
