/-
# Evaluation

The value of an expression, the truth of a predicate and the outcome of a rule
in the view of a process.  Operands are evaluated from left to right, a
connective stops at the first operand that decides it, and a conditional
evaluates the chosen branch only.
-/

import LossyConsensus.Protocol.Rule
import LossyConsensus.Protocol.View

namespace LossyConsensus.Protocol

variable {R : Type} [Scalar R]

/-- Combine the values of an aggregation; an empty list has no aggregate. -/
def Aggregation.apply (how : Aggregation) : List R → Except EvalError R
  | [] => .error (.emptyAggregate how)
  | first :: rest => .ok <| match how with
    | .sum => Scalar.sum (first :: rest)
    | .avg => Scalar.mean (first :: rest)
    | .min => Scalar.least first rest
    | .max => Scalar.greatest first rest
    | .count => Scalar.ofNat (first :: rest).length

/-- Apply an arithmetic operator; only division by zero fails. -/
def Operator.apply (op : Operator) (left right : R) : Except EvalError R :=
  match op with
  | .add => .ok (left + right)
  | .sub => .ok (left - right)
  | .mul => .ok (left * right)
  | .div => if Scalar.eq right Scalar.zero then .error .divisionByZero else .ok (left / right)

/-- The only received value that differs from the process's value before the
round. -/
def View.other (view : View R) : Except EvalError R :=
  match Scalar.distinct view.differing with
  | [] => .error .nothingDiffers
  | [value] => .ok value
  | values => .error (.severalDiffer values.length)

/-- The value of the first message from a sender. -/
def View.valueFrom (view : View R) (sender : Int) : Except EvalError R :=
  match view.inbox.find? fun message => message.1 == sender with
  | some message => .ok message.2
  | none => .error (.noMessageFrom sender view.id)

/-- The values received from the given senders. -/
def View.receivedFrom (view : View R) (senders : List Int) : List R :=
  (view.inbox.filter fun message => senders.contains message.1).map (·.2)

/-- The value of an expression in a view. -/
def Expr.eval (view : View R) : Expr R → Except EvalError R
  | .own => .ok view.own
  | .literal value => .ok value
  | .parameter name =>
      match view.parameters.lookup name with
      | some value => .ok value
      | none => .error (.missingParameter name)
  | .binary op left right => do
      let left ← left.eval view
      let right ← right.eval view
      op.apply left right
  | .aggregate how withOwn => how.apply (if withOwn then view.withOwn else view.received)
  | .aggregateFrom how senders withOwn =>
      let values := view.receivedFrom senders
      how.apply (if withOwn then view.own :: values else values)
  | .other => view.other
  | .valueFrom sender => view.valueFrom sender
  | .foreign kind => .error (.foreignExpr kind)

/-- Whether a relation holds between two scalars. -/
def Relation.holds (op : Relation) (left right : R) : Bool :=
  match op with
  | .ge => Scalar.le right left
  | .le => Scalar.le left right
  | .ne => !Scalar.eq left right
  | .eq => Scalar.eq left right
  | .gt => Scalar.lt right left
  | .lt => Scalar.lt left right

/-- How many processes other than the viewer sent a message. -/
def View.otherSenders (view : View R) : Nat :=
  ((view.senders.filter (· != view.id)).eraseDups).length

/-- The truth of a predicate in a view. -/
def Predicate.eval (view : View R) : Predicate R → Except EvalError Bool
  | .receivedAny => .ok (!view.inbox.isEmpty)
  | .receivedAll => .ok (view.processes - 1 ≤ view.otherSenders)
  | .receivedAtLeast count => .ok (count ≤ view.inbox.length)
  | .receivedMajority =>
      if view.hasHalf then .ok (view.processes < 2 * view.inbox.length) else .error .noHalf
  | .receivedDiff _ => .ok (!view.differing.isEmpty)
  | .receivedFrom sender => .ok (view.senders.contains sender)
  | .isLeader =>
      match view.leader with
      | some leader => .ok (view.id == leader)
      | none => .error .noLeader
  | .compare op left right => do
      let left ← left.eval view
      let right ← right.eval view
      return op.holds left right
  | .conj left right => do
      if ← left.eval view then right.eval view else return false
  | .disj left right => do
      if ← left.eval view then return true else right.eval view
  | .neg operand => do
      return !(← operand.eval view)
  | .constant value => .ok value
  | .brokenNegation => .error .negationArity
  | .foreign kind => .error (.foreignPredicate kind)

/-- The outcome of a rule that combines the process's own value with
everything received. -/
def Combination.apply (how : Combination) (view : View R) : R :=
  let least := Scalar.least view.own view.received
  let greatest := Scalar.greatest view.own view.received
  match how with
  | .average => Scalar.mean view.withOwn
  | .min => least
  | .max => greatest
  | .midpoint => (least + greatest) / Scalar.ofNat 2

/-- The value that a rule gives a process. -/
def Rule.eval (view : View R) : Rule R → Except EvalError R
  | .assign _ value => value.eval view
  | .combine how => .ok (how.apply view)
  | .ifDifferent different same =>
      if view.differing.isEmpty then same.eval view else different.eval view
  | .onlyIf condition rule => do
      if ← condition.eval view then rule.eval view else return view.own
  | .choose condition yes no => do
      if ← condition.eval view then yes.eval view else no.eval view
  | .foreign kind => .error (.foreignRule kind)

end LossyConsensus.Protocol
