/-
# Protocols over other scalars

A protocol with all its numbers replaced by scalars of another type; nothing
else of it changes.
-/

import LossyConsensus.Protocol.Declaration

namespace LossyConsensus.Protocol

variable {R S : Type}

/-- An expression with its numbers replaced. -/
def Expr.map (f : R → S) : Expr R → Expr S
  | .own => .own
  | .parameter name => .parameter name
  | .literal value => .literal (f value)
  | .binary op left right => .binary op (left.map f) (right.map f)
  | .aggregate how withOwn => .aggregate how withOwn
  | .aggregateFrom how senders withOwn => .aggregateFrom how senders withOwn
  | .other => .other
  | .valueFrom sender => .valueFrom sender
  | .foreign kind => .foreign kind

/-- A predicate with its numbers replaced. -/
def Predicate.map (f : R → S) : Predicate R → Predicate S
  | .receivedAny => .receivedAny
  | .receivedAll => .receivedAll
  | .receivedAtLeast count => .receivedAtLeast count
  | .receivedMajority => .receivedMajority
  | .receivedDiff name => .receivedDiff name
  | .receivedFrom sender => .receivedFrom sender
  | .isLeader => .isLeader
  | .compare op left right => .compare op (left.map f) (right.map f)
  | .conj left right => .conj (left.map f) (right.map f)
  | .disj left right => .disj (left.map f) (right.map f)
  | .neg operand => .neg (operand.map f)
  | .constant value => .constant value
  | .brokenNegation => .brokenNegation
  | .foreign kind => .foreign kind

/-- A rule with its numbers replaced. -/
def Rule.map (f : R → S) : Rule R → Rule S
  | .assign target value => .assign target (value.map f)
  | .combine how => .combine how
  | .ifDifferent different same => .ifDifferent (different.map f) (same.map f)
  | .onlyIf condition rule => .onlyIf (condition.map f) (rule.map f)
  | .choose condition yes no => .choose (condition.map f) (yes.map f) (no.map f)
  | .foreign kind => .foreign kind

/-- A phase with its numbers replaced. -/
def Phase.map (f : R → S) (phase : Phase R) : Phase S where
  kind := phase.kind
  rule := phase.rule.map f
  after := phase.after

/-- Initial values with their numbers replaced. -/
def Initial.map (f : R → S) : Initial R → Initial S
  | .values list => .values (list.map f)
  | .rule expr => .rule (expr.map f)

/-- A setting with its number replaced, if it is one. -/
def Setting.map (f : R → S) : Setting R → Setting S
  | .real value => .real (f value)
  | .process id => .process id
  | .guarantee value => .guarantee value

end LossyConsensus.Protocol

namespace LossyConsensus

open Protocol in
/-- A protocol with its numbers replaced. -/
def Protocol.map {R S : Type} (f : R → S) (protocol : Protocol R) : Protocol S where
  name := protocol.name
  processes := protocol.processes
  initial := protocol.initial.map f
  phases := protocol.phases.map (Phase.map f)
  metrics := protocol.metrics
  settings := protocol.settings.map fun (name, setting) => (name, setting.map f)
  models := protocol.models
  stateVar := protocol.stateVar
  domain := protocol.domain

end LossyConsensus
