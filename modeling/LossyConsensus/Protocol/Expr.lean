/-
# Value expressions

The arithmetic that a rule applies to what a process knows: its own value, the
protocol's parameters and the values it received.
-/

namespace LossyConsensus.Protocol

/-- Arithmetic operators. -/
inductive Operator
  | add | sub | mul | div
  deriving Repr, DecidableEq

/-- The sign of an operator. -/
def Operator.sign : Operator → Char
  | .add => '+'
  | .sub => '-'
  | .mul => '*'
  | .div => '/'

/-- Ways to combine a non-empty list of values into one. -/
inductive Aggregation
  | sum | avg | min | max | count
  deriving Repr, DecidableEq

/-- The word that names an aggregation. -/
def Aggregation.word : Aggregation → String
  | .sum => "sum"
  | .avg => "avg"
  | .min => "min"
  | .max => "max"
  | .count => "count"

/-- Value expressions over scalars `R`.

`aggregate` ranges over the whole inbox and `aggregateFrom` over the messages
of the given senders; both include the process's own value on request.  `other`
is the single received value that differs from the process's own value before
the round.  A `foreign` node is a node of another family, known by its name, in
the place of an expression: no text denotes it and it has no value. -/
inductive Expr (R : Type)
  | own
  | parameter (name : String)
  | literal (value : R)
  | binary (op : Operator) (left right : Expr R)
  | aggregate (how : Aggregation) (withOwn : Bool)
  | aggregateFrom (how : Aggregation) (senders : List Int) (withOwn : Bool)
  | other
  | valueFrom (sender : Int)
  | foreign (kind : String)
  deriving Repr, DecidableEq, Inhabited

end LossyConsensus.Protocol
