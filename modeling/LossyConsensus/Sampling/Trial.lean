/-
# Repeated runs

Runs of one experiment from consecutive seeds.  A run that does not meet the
demands of the guaranteed delivery models is rejected and its seed counts as
tried; a shortfall of valid runs is reported, and the statistics are taken over
those there are.
-/

import LossyConsensus.Sampling.Config
import LossyConsensus.Sampling.Result
import LossyConsensus.Sampling.Scan
import LossyConsensus.Slice
import LossyConsensus.Trace.Record

namespace LossyConsensus.Sampling

open LossyConsensus.Network LossyConsensus.Simulation

/-- Fewer valid runs than wanted. -/
structure Shortfall (R : Type) where
  protocol : String
  p : R
  valid : Nat
  wanted : Int
  attempts : Nat
  deriving Repr, DecidableEq

/-- The text of a shortfall. -/
def Shortfall.message (shortfall : Shortfall Value) : String :=
  "Only " ++ toString shortfall.valid ++ " of " ++ toString shortfall.wanted ++
    " runs satisfied the guaranteed delivery constraints after " ++
    toString shortfall.attempts ++ " attempts at p=" ++ shortfall.p.text

/-- The records of the run of one seed. -/
structure TracedRun (R : Type) where
  seed : Int
  records : List (Trace.Record R)

/-- The runs that left records, by seed: the records of all runs of a seed stand
together where the first of them stands. -/
def bySeed {R : Type} (runs : List (TracedRun R)) : List (TracedRun R) :=
  let kept := runs.filter fun run => !run.records.isEmpty
  (kept.map (·.seed)).eraseDups.map fun seed =>
    { seed, records := (kept.filter (·.seed == seed)).flatMap (·.records) }

/-- The outcome of repeated runs. -/
structure Trial (R : Type) where
  result : Result R
  shortfall : Option (Shortfall R)
  traced : List (TracedRun R)

/-- Why repeated runs stop without a result. -/
inductive TrialError (R : Type)
  | run (error : RunError R)
  | lengths (error : LengthMismatch)
  deriving Repr, DecidableEq

/-- The text of a trial error. -/
def TrialError.message : TrialError Value → String
  | .run error => error.message
  | .lengths error => error.message

variable {R : Type} [Scalar R]

/-- The summary of the run of one seed. -/
def attempt (experiment : Experiment R) (tolerance : R) (seed : Int) :
    Except (RunError R) (Summary R) :=
  (run experiment seed tolerance).map fun finished => finished.summary tolerance

/-- Whether a run meets the demands of all guaranteed models. -/
def isValid (assignment : Assignment) (summary : Summary R) : Bool :=
  assignment.isSatisfied (summary.deliveredPerRound.map Int.ofNat) summary.totalDelivered

/-- The delivery models of an experiment's processes. -/
def assignmentOf (experiment : Experiment R) : Except (RunError R) Assignment :=
  (Assignment.ofSpecs experiment.models experiment.processes).mapError .model

/-- How many runs may be tried under a configuration. -/
def maxAttempts (config : Config R) (assignment : Assignment) : Nat :=
  config.budget (!assignment.guaranteed.isEmpty)

/-- Scan seeds for valid runs, in batches when there are several workers. -/
def scanRuns (experiment : Experiment R) (config : Config R) (assignment : Assignment) :
    Except (RunError R) (Scan (Summary R)) :=
  let wanted := config.repetitions.toNat
  let budget := maxAttempts config assignment
  let attempt := attempt experiment config.tolerance
  if 1 < config.workers then
    scanParallel attempt (isValid assignment) config.workers.toNat wanted budget config.seed
  else scan attempt (isValid assignment) wanted budget config.seed

/-- Run again, with records, the seeds of the first `limit` valid runs. -/
def replay (experiment : Experiment R) (config : Config R) (seeds : List Int) :
    Except (RunError R) (List (TracedRun R)) :=
  seeds.mapM fun seed => do
    let finished ← run experiment seed config.tolerance
    return { seed, records := Trace.ofRun config.tolerance finished }

/-- Run an experiment repeatedly; `limit` bounds the valid runs that are
traced. -/
def sample (experiment : Experiment R) (config : Config R) (limit : Int) :
    Except (TrialError R) (Trial R) := do
  let assignment ← (assignmentOf experiment).mapError .run
  let scan ← (scanRuns experiment config assignment).mapError .run
  let valid := scan.valid.length
  let shortfall : Option (Shortfall R) :=
    if valid < config.repetitions.toNat then
      some {
        protocol := experiment.name
        p := experiment.p
        valid := valid
        wanted := config.repetitions
        attempts := scan.attempts }
    else none
  let seeds := takeBefore limit (scan.valid.map (·.1))
  let traced ← (replay experiment config seeds).mapError .run
  let observations := scan.valid.map fun found => Observation.ofSummary found.2
  let result ← (aggregate experiment.p config.tolerance observations scan.attempts
    config.repetitions experiment.traceLength).mapError .lengths
  return { result, shortfall, traced }

end LossyConsensus.Sampling
