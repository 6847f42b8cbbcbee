/-
# Records of rounds

A record says what happened in one round of one run: the values before and
after it, the inboxes, and what follows from them.
-/

import LossyConsensus.Simulation.Run

namespace LossyConsensus.Trace

open LossyConsensus.Simulation

/-- What happened in a round.  Inboxes and flags stand by process. -/
structure Record (R : Type) where
  round : Int
  before : List R
  inboxes : List (Int × List (Int × R)) := []
  after : List R
  discrepancy : R
  consensus : Bool := false
  flags : List (Int × Bool) := []
  delivered : Int := 0
  isEnd : Bool := false
  deriving Repr, DecidableEq

/-- A record with its values replaced. -/
def Record.map {R S : Type} (f : R → S) (record : Record R) : Record S where
  round := record.round
  before := record.before.map f
  inboxes := record.inboxes.map fun (id, inbox) =>
    (id, inbox.map fun (sender, value) => (sender, f value))
  after := record.after.map f
  discrepancy := f record.discrepancy
  consensus := record.consensus
  flags := record.flags
  delivered := record.delivered
  isEnd := record.isEnd

variable {R : Type} [Scalar R]

/-- The value of a process in a list of values by process. -/
def valueOf (values : List R) (id : Int) : R :=
  values.getD (id.toNat - 1) Scalar.zero

/-- The record of a step of a run. -/
def Record.ofStep (tolerance : R) (step : Step R) : Record R :=
  let inboxes := step.inboxes.map fun (id, inbox) => (id, packed inbox)
  { round := step.round
    before := step.before
    inboxes := inboxes
    after := step.after
    discrepancy := Simulation.discrepancy step.after
    consensus := isConsensus tolerance step.after
    flags := inboxes.map fun (id, inbox) =>
      (id, inbox.any fun (_, value) => !Scalar.eq value (valueOf step.before id))
    delivered := step.delivered
    isEnd := step.isEnd }

/-- The records of a run, one for each of its steps. -/
def ofRun (tolerance : R) (run : Run R) : List (Record R) :=
  run.steps.map (Record.ofStep tolerance)

/-- The states that records pass through: the values before the first of them,
then the values after each. -/
def history (records : List (Record R)) : List (List R) :=
  match records with
  | [] => []
  | first :: _ => first.before :: records.map (·.after)

/-- Keep the records of one round. -/
def atRound (round : Option Int) (records : List (Record R)) : List (Record R) :=
  records.filter fun record => round.all (· == record.round)

/-- Keep of a record what touches a process: its own inbox, the messages it
sent, and its own flag. -/
def Record.about (process : Int) (record : Record R) : Record R :=
  let inboxes := record.inboxes.map fun (receiver, inbox) =>
    (receiver, if receiver == process then inbox
      else inbox.filter fun (sender, _) => sender == process)
  { record with
    inboxes := inboxes.filter fun (receiver, inbox) => !inbox.isEmpty || receiver == process
    flags := record.flags.filter fun (id, _) => id == process }

/-- Keep the records of one round, and of them what touches one process. -/
def filter (process round : Option Int) (records : List (Record R)) : List (Record R) :=
  match process with
  | none => atRound round records
  | some id => (atRound round records).map (Record.about id)

end LossyConsensus.Trace
