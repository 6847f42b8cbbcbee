/-
# Predicates and update rules

A predicate asks what a process received in the round; an update rule says
which value it takes next.
-/

import LossyConsensus.Protocol.Expr

namespace LossyConsensus.Protocol

/-- Comparison operators. -/
inductive Relation
  | ge | le | ne | eq | gt | lt
  deriving Repr, DecidableEq

/-- The sign of a relation. -/
def Relation.sign : Relation → String
  | .ge => ">="
  | .le => "<="
  | .ne => "!="
  | .eq => "=="
  | .gt => ">"
  | .lt => "<"

/-- The relation that holds with its operands exchanged. -/
def Relation.converse : Relation → Relation
  | .ge => .le
  | .le => .ge
  | .ne => .ne
  | .eq => .eq
  | .gt => .lt
  | .lt => .gt

/-- Predicates over scalars `R`.

`conj` and `disj` decide their left operand first and the right one only when
needed.  A `foreign` node is a node of another family in the place of a
predicate, and `brokenNegation` a negation that has not exactly one operand;
no text denotes either and neither has a truth value. -/
inductive Predicate (R : Type)
  | receivedAny
  | receivedAll
  | receivedAtLeast (count : Int)
  | receivedMajority
  | receivedDiff (name : String)
  | receivedFrom (sender : Int)
  | isLeader
  | compare (op : Relation) (left right : Expr R)
  | conj (left right : Predicate R)
  | disj (left right : Predicate R)
  | neg (operand : Predicate R)
  | constant (value : Bool)
  | brokenNegation
  | foreign (kind : String)
  deriving Repr, DecidableEq, Inhabited

namespace Predicate

variable {R : Type}

/-- The conjunction of a list of predicates. -/
def all : List (Predicate R) → Predicate R
  | [] => .constant true
  | [only] => only
  | first :: rest => .conj first (all rest)

/-- The disjunction of a list of predicates. -/
def any : List (Predicate R) → Predicate R
  | [] => .constant false
  | [only] => only
  | first :: rest => .disj first (any rest)

end Predicate

/-- What an assignment is written to: the plain variable, or the variable
indexed by the process itself. -/
inductive Target
  | plain (name : String)
  | indexed (name : String)
  deriving Repr, DecidableEq

/-- Rules that combine the process's own value with everything received. -/
inductive Combination
  | average | min | max | midpoint
  deriving Repr, DecidableEq

/-- The word that names a combination. -/
def Combination.word : Combination → String
  | .average => "average"
  | .min => "min"
  | .max => "max"
  | .midpoint => "midpoint"

/-- Update rules over scalars `R`.

`ifDifferent` chooses by whether a received value differs from the process's
value before the round.  `onlyIf` keeps the value when its predicate fails.  A
`foreign` node is a node of another family in the place of a rule. -/
inductive Rule (R : Type)
  | assign (target : Target) (value : Expr R)
  | combine (how : Combination)
  | ifDifferent (different same : Expr R)
  | onlyIf (condition : Predicate R) (rule : Rule R)
  | choose (condition : Predicate R) (yes no : Rule R)
  | foreign (kind : String)
  deriving Repr, DecidableEq, Inhabited

end LossyConsensus.Protocol
