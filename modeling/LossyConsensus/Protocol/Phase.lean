/-
# Phases

A phase is an update rule together with the rounds in which it runs.  Rounds
are numbered from 1; consensus is judged on the values before the round.
-/

import LossyConsensus.Protocol.Rule

namespace LossyConsensus.Protocol

/-- When a phase runs. -/
inductive PhaseKind
  | eachRound | firstRound | afterRounds | untilConsensus | atEnd
  deriving Repr, DecidableEq

/-- The word that names a kind of phases. -/
def PhaseKind.word : PhaseKind → String
  | .eachRound => "each_round"
  | .firstRound => "first_round"
  | .afterRounds => "after_rounds"
  | .untilConsensus => "until_consensus"
  | .atEnd => "end"

/-- A rule with the rounds in which it runs.  `after` is the number of rounds
that an `afterRounds` phase waits; the other kinds do not use it. -/
structure Phase (R : Type) where
  kind : PhaseKind
  rule : Rule R
  after : Option Int := none
  deriving Repr, DecidableEq

namespace Phase

variable {R : Type}

/-- Whether the phase runs once after the last round. -/
def isEnd (phase : Phase R) : Bool :=
  phase.kind == .atEnd

/-- Whether a phase that waits for rounds says for how many. -/
def isSound (phase : Phase R) : Bool :=
  match phase.kind, phase.after with
  | .afterRounds, none => false
  | .afterRounds, some count => 0 ≤ count
  | _, _ => true

/-- Whether the phase runs in a round. -/
def isActive (phase : Phase R) (round : Int) (consensus : Bool) : Bool :=
  match phase.kind with
  | .eachRound => true
  | .firstRound => round == 1
  | .afterRounds => phase.after.getD 0 < round
  | .untilConsensus => !consensus
  | .atEnd => false

end Phase

end LossyConsensus.Protocol
