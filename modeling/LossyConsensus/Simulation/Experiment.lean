/-
# Experiments

A protocol bound to a delivery probability, a number of rounds, a topology and
faults: everything that determines a run but its seed.
-/

import LossyConsensus.Network.Fault
import LossyConsensus.Network.Inbox
import LossyConsensus.Protocol.Evaluate
import LossyConsensus.Slice

namespace LossyConsensus.Simulation

open LossyConsensus.Network LossyConsensus.Protocol

/-- What a run needs besides its seed. -/
structure Experiment (R : Type) where
  name : String
  processes : Nat
  rounds : Nat
  p : R
  phases : List (Phase R)
  leader : Option Int
  parameters : List (String × R)
  initial : Initial R
  models : List ModelSpec
  channel : Setting R
  topology : Option (Topology R)
  faults : Option (Fault R)

/-- Why a protocol cannot be bound. -/
inductive BindError (R : Type)
  | leader (error : NotFinite)
  | probability (value : R)
  | rounds (count : Int)
  deriving Repr, DecidableEq

/-- The text of a binding error. -/
def BindError.message : BindError Value → String
  | .leader error => error.message
  | .probability value => "p must be in [0, 1], got " ++ value.text
  | .rounds count => "rounds must be non-negative, got " ++ toString count

namespace Experiment

variable {R : Type} [Scalar R]

/-- Bind a protocol. -/
def ofProtocol (protocol : LossyConsensus.Protocol R) (p : R) (rounds : Int)
    (topology : Option (Topology R)) (faults : Option (Fault R)) :
    Except (BindError R) (Experiment R) := do
  let leader ← (Settings.leader protocol.settings).mapError .leader
  if !Scalar.isProbability p then
    throw (.probability p)
  if rounds < 0 then
    throw (.rounds rounds)
  return {
    name := protocol.name
    processes := protocol.processes
    rounds := rounds.toNat
    p := p
    phases := protocol.phases
    leader := leader
    parameters := Settings.numbers protocol.settings
    initial := protocol.initial
    models := protocol.models
    channel := Settings.channel protocol.settings
    topology := topology
    faults := faults }

/-- The phases that run in rounds. -/
def roundPhases (experiment : Experiment R) : List (Phase R) :=
  experiment.phases.filter fun phase => !phase.isEnd

/-- The phases that run once after the last round. -/
def endPhases (experiment : Experiment R) : List (Phase R) :=
  experiment.phases.filter Phase.isEnd

/-- Whether a phase runs after the last round. -/
def hasEnd (experiment : Experiment R) : Bool :=
  experiment.phases.any Phase.isEnd

/-- How many discrepancies a run records: at the start, after each round, and
after the phase at the end if there is one. -/
def traceLength (experiment : Experiment R) : Nat :=
  experiment.rounds + 1 + if experiment.hasEnd then 1 else 0

/-- The initial value of a process.  A rule sees the number of the process as
the parameter `i`, whatever the protocol declares under that name. -/
def initialValue (experiment : Experiment R) (id : Nat) : Except EvalError R :=
  match experiment.initial with
  | .values values => .ok (values.getD (id - 1) Scalar.zero)
  | .rule rule =>
      let view : View R := {
        own := Scalar.zero
        before := Scalar.zero
        id := id
        parameters := ("i", Scalar.ofNat id) :: experiment.parameters }
      rule.eval view

/-- The view of a process whose value before the round is `own`. -/
def view (experiment : Experiment R) (id : Int) (own : R) (inbox : List (Int × R)) : View R where
  own := own
  before := own
  inbox := inbox
  processes := experiment.processes
  id := id
  leader := experiment.leader
  parameters := experiment.parameters

/-- The view of a process among the values of all of them before the round. -/
def viewAmong (experiment : Experiment R) (id : Int) (values : List R)
    (inbox : List (Int × R)) : Except IndexError (View R) := do
  let own ← itemAt values (id - 1)
  return experiment.view id own inbox

/-- Run the rules of phases one after the other, each on the value that the one
before it gave. -/
def runPhases (view : View R) : List (Phase R) → Except EvalError R
  | [] => .ok view.own
  | phase :: rest => do
      let own ← phase.rule.eval view
      runPhases { view with own } rest

/-- The value that a process takes in a round. -/
def apply (experiment : Experiment R) (view : View R) (round : Int) (consensus : Bool) :
    Except EvalError R :=
  runPhases view (experiment.roundPhases.filter fun phase => phase.isActive round consensus)

/-- The value that a process takes at the end. -/
def applyEnd (experiment : Experiment R) (view : View R) : Except EvalError R :=
  runPhases view experiment.endPhases

end Experiment

end LossyConsensus.Simulation
