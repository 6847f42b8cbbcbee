/-
# What a process sees of a round

The view of one process holds everything that its rule may use, and nothing
else: in particular no value computed in the same round by another process.
-/

import LossyConsensus.Decimal.Quotient
import LossyConsensus.Protocol.Expr
import LossyConsensus.Scalar

namespace LossyConsensus.Protocol

/-- One process's view of a round.

`own` is the current value, which an earlier phase of the round may have
changed; `before` is the value before the round.  The inbox holds senders and
values in the order of delivery.  `hasHalf` says that half the number of
processes is in the range of doubles; for processes that hold values it is. -/
structure View (R : Type) where
  own : R
  before : R
  inbox : List (Int × R) := []
  processes : Int := 1
  hasHalf : Bool := true
  id : Int := 1
  leader : Option Int := none
  parameters : List (String × R) := []

namespace View

variable {R : Type}

/-- The received values in the order of delivery. -/
def received (view : View R) : List R :=
  view.inbox.map (·.2)

/-- The senders of the received messages in the order of delivery. -/
def senders (view : View R) : List Int :=
  view.inbox.map (·.1)

/-- The received values that differ from the process's value before the
round. -/
def differing [Scalar R] (view : View R) : List R :=
  view.received.filter fun value => !Scalar.eq value view.before

/-- A view with any number of processes, of which the half may be out of
range. -/
def checked (view : View R) : View R :=
  { view with hasHalf := Decimal.hasHalf view.processes }

/-- The process's own value ahead of everything received. -/
def withOwn (view : View R) : List R :=
  view.own :: view.received

end View

/-- Why an expression, a predicate or a rule has no value in a view. -/
inductive EvalError
  | divisionByZero
  | missingParameter (name : String)
  | emptyAggregate (how : Aggregation)
  | nothingDiffers
  | severalDiffer (count : Nat)
  | noMessageFrom (sender receiver : Int)
  | noLeader
  | noHalf
  | negationArity
  | foreignExpr (kind : String)
  | foreignPredicate (kind : String)
  | foreignRule (kind : String)
  deriving Repr, DecidableEq

/-- The text of an evaluation error. -/
def EvalError.message : EvalError → String
  | .divisionByZero => "Division by zero in expression"
  | .missingParameter name =>
      "Parameter '" ++ name ++ "' not provided; declare it in PARAMETERS"
  | .emptyAggregate how => "Cannot aggregate " ++ how.word ++ " over an empty set of values"
  | .nothingDiffers => "received_other requires a differing value but none was received"
  | .severalDiffer count =>
      "received_other found " ++ toString count ++ " distinct differing values; " ++
        "it is only defined when exactly one other value is received"
  | .noMessageFrom sender receiver =>
      "value_from(" ++ toString sender ++ "): no message from process " ++ toString sender ++
        " reached process " ++ toString receiver ++ " this round"
  | .noLeader => "'self is leader' used but no leader is declared in ROLES"
  | .noHalf => Decimal.QuotientError.tooLarge.message
  | .negationArity => "'not' requires exactly one operand"
  | .foreignExpr kind => "Unsupported expression node: " ++ kind
  | .foreignPredicate kind => "Unsupported predicate node: " ++ kind
  | .foreignRule kind => "Unsupported update rule: " ++ kind

end LossyConsensus.Protocol
