/-
# Runs

One run goes through all rounds of an experiment.  In each round every process
sends its value to every other one; the topology, the faults, the delivery
models and the channel guarantee decide what arrives; every process computes
its next value from the values before the round and its own inbox; and all of
them change at once.  A phase at the end sees the inboxes of the last round.
-/

import LossyConsensus.Simulation.Experiment
import LossyConsensus.Simulation.Metric

namespace LossyConsensus.Simulation

open LossyConsensus.Network LossyConsensus.Protocol LossyConsensus.Random

-- Sums start from the zero of the core library, whatever algebra is imported
-- beside it.
attribute [local instance (2000)] Zero.ofOfNat0

variable {R : Type} [Scalar R]

/-- Why a run stops without a result. -/
inductive RunError (R : Type)
  | seed (error : SeedError)
  | model (error : ModelError)
  | topology (error : TopologyError R)
  | evaluation (error : EvalError)
  | channel (setting : Setting R)
  deriving Repr, DecidableEq

/-- The text of a setting where a channel guarantee is expected. -/
def settingText : Setting Value → String
  | .real value => value.text
  | .process id => toString id
  | .guarantee value => value.word

/-- The text of a run error. -/
def RunError.message : RunError Value → String
  | .seed error => error.message
  | .model error => error.message
  | .topology error => error.message
  | .evaluation error => error.message
  | .channel setting => "Unknown channel guarantee: " ++ settingText setting

/-- What does not change during a run: the delivery models and, under a
topology, the neighbours of each process. -/
structure Network (R : Type) where
  assignment : Assignment
  neighbors : Option (List (Int × List Int))

/-- The network of an experiment. -/
def Network.ofExperiment (experiment : Experiment R) : Except (RunError R) (Network R) := do
  let assignment ← (Assignment.ofSpecs experiment.models experiment.processes).mapError .model
  let neighbors ← experiment.topology.mapM fun topology =>
    (processIds experiment.processes).mapM fun id => do
      let ids ← (topology.neighbors id experiment.processes).mapError .topology
      return (id, ids)
  return { assignment, neighbors }

/-- Whether the topology lets a message through. -/
def Network.connects (network : Network R) (message : Message R) : Bool :=
  match network.neighbors with
  | none => true
  | some table => ((table.lookup message.sender).getD []).contains message.receiver

/-- The messages of a round that topology and faults leave. -/
def sent (experiment : Experiment R) (network : Network R) (values : List R) (round : Int) :
    Except (RunError R) (List (Message R)) :=
  let outbound := (flood values).filter network.connects
  match experiment.faults with
  | none => .ok outbound
  | some fault => (fault.apply outbound round).mapError .seed

/-- Top up inboxes as the channel demands.  A setting that is no guarantee is
an error. -/
def enforce (experiment : Experiment R) (inboxes : Inboxes R) (undelivered : List (Message R)) :
    Except (RunError R) (Inboxes R) :=
  match experiment.channel with
  | .guarantee guarantee =>
      .ok (topUp guarantee experiment.processes inboxes undelivered).1
  | setting => .error (.channel setting)

/-- The inboxes of a round and the generator after it. -/
def exchange (experiment : Experiment R) (network : Network R) (values : List R) (round : Int)
    (generator : Generator) : Except (RunError R) (Inboxes R × Generator) := do
  let outbound ← sent experiment network values round
  let (outcome, generator) := deliver network.assignment experiment.p outbound generator
  let filled := Inboxes.ofDelivered experiment.processes outcome.delivered
  let inboxes ← enforce experiment filled outcome.undelivered
  return (inboxes, generator)

/-- The senders and values of an inbox. -/
def packed (inbox : List (Message R)) : List (Int × R) :=
  inbox.map fun message => (message.sender, message.payload)

/-- The next value of every process, given how a process computes it from its
view; what is computed arises in this round. -/
def commit (experiment : Experiment R) (round : Nat) (inboxes : Inboxes R) (values : List R)
    (next : View R → Except EvalError R) : Except (RunError R) (List R) :=
  (values.zipIdx 1).mapM fun (own, id) => do
    let value ← (next (experiment.view id own (packed (inboxes.get id)))).mapError .evaluation
    return Scalar.arise round id value

/-- One step of a run: a round, or the phase at the end. -/
structure Step (R : Type) where
  round : Nat
  before : List R
  inboxes : Inboxes R
  after : List R
  delivered : Nat
  isEnd : Bool := false

/-- Play one round. -/
def playRound (experiment : Experiment R) (network : Network R) (tolerance : R) (round : Nat)
    (values : List R) (generator : Generator) : Except (RunError R) (Step R × Generator) := do
  let (inboxes, generator) ← exchange experiment network values round generator
  let consensus := isConsensus tolerance values
  let after ← commit experiment round inboxes values fun view =>
    experiment.apply view round consensus
  return ({ round, before := values, inboxes, after, delivered := inboxes.size }, generator)

/-- Play `count` rounds, the first of them numbered `round`. -/
def playRounds (experiment : Experiment R) (network : Network R) (tolerance : R) :
    Nat → Nat → List R → Generator → Except (RunError R) (List (Step R))
  | 0, _, _, _ => .ok []
  | count + 1, round, values, generator => do
      let (step, generator) ← playRound experiment network tolerance round values generator
      let steps ← playRounds experiment network tolerance count (round + 1) step.after generator
      return step :: steps

/-- Play the phase at the end, on the inboxes of the last round. -/
def playEnd (experiment : Experiment R) (values : List R) (inboxes : Inboxes R) :
    Except (RunError R) (Step R) := do
  let round := experiment.rounds + 1
  let after ← commit experiment round inboxes values experiment.applyEnd
  return { round, before := values, inboxes, after, delivered := 0, isEnd := true }

/-- A finished run: the initial values and its steps. -/
structure Run (R : Type) where
  start : List R
  steps : List (Step R)

/-- The initial values of all processes. -/
def initialValues (experiment : Experiment R) : Except (RunError R) (List R) :=
  (List.range experiment.processes).mapM fun k => do
    let value ← (experiment.initialValue (k + 1)).mapError .evaluation
    return Scalar.arise 0 (k + 1) value

/-- The values after the steps of a run. -/
def valuesAfter (start : List R) (steps : List (Step R)) : List R :=
  (steps.getLast?.map (·.after)).getD start

/-- Run an experiment from a seed. -/
def run (experiment : Experiment R) (seed : Int) (tolerance : R) :
    Except (RunError R) (Run R) := do
  let generator ← (Generator.ofSeed seed).mapError .seed
  let network ← Network.ofExperiment experiment
  let start ← initialValues experiment
  let rounds ← playRounds experiment network tolerance experiment.rounds 1 start generator
  if experiment.hasEnd then
    let inboxes := (rounds.getLast?.map (·.inboxes)).getD (Inboxes.empty experiment.processes)
    let last ← playEnd experiment (valuesAfter start rounds) inboxes
    return { start, steps := rounds ++ [last] }
  else
    return { start, steps := rounds }

/-- The outcome of a run in numbers. -/
structure Summary (R : Type) where
  finalDiscrepancy : R
  finalConsensus : Bool
  discrepancies : List R
  totalDelivered : Nat
  deliveredPerRound : List Nat
  finalValues : List R
  deriving Repr, DecidableEq

namespace Run

/-- The values after the last step. -/
def finalValues (run : Run R) : List R :=
  valuesAfter run.start run.steps

/-- The steps that are rounds. -/
def rounds (run : Run R) : List (Step R) :=
  run.steps.filter fun step => !step.isEnd

/-- The summary of a run. -/
def summary (run : Run R) (tolerance : R) : Summary R :=
  let perRound := run.rounds.map (·.delivered)
  { finalDiscrepancy := discrepancy run.finalValues
    finalConsensus := isConsensus tolerance run.finalValues
    discrepancies := discrepancy run.start :: run.steps.map fun step => discrepancy step.after
    totalDelivered := perRound.sum
    deliveredPerRound := perRound
    finalValues := run.finalValues }

end Run

end LossyConsensus.Simulation
