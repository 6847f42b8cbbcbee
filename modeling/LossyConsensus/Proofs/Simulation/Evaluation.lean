/-
# How evaluations can fail

A protocol that was read from a text and bound to an experiment evaluates its
rules without surprises.  Whatever a process has received, an evaluation fails
only for a zero divisor, for values that are not there, or for a leader that is
not there; no name is without a value and no part of a rule without a meaning.
-/

import LossyConsensus.Proofs.Simulation.Visit
import LossyConsensus.Proofs.Source.Protocol

namespace LossyConsensus.Simulation

open LossyConsensus.Network LossyConsensus.Protocol LossyConsensus.Random LossyConsensus.Source

variable {R : Type} [Scalar R]

/-! ## The initial rule -/

/-- An initial rule without a fault fails only for a zero divisor. -/
theorem eval_initial_eq_error {names : List String} {rule : Expr Float}
    (hrule : initialFault? names rule = none) (f : Float → R) {view : View R}
    (hview : view.Provides names) {error : EvalError}
    (h : (rule.map f).eval view = .error error) : error = .divisionByZero := by
  induction rule with
  | own => cases hrule
  | parameter name =>
      rw [initialFault?] at hrule
      split at hrule
      · next hname =>
        obtain ⟨value, hvalue⟩ :=
          Option.isSome_iff_exists.mp (hview name (List.contains_iff_mem.mp hname))
        rw [Expr.map, Expr.eval, hvalue] at h
        cases h
      · cases hrule
  | literal value => cases h
  | binary op left right ihleft ihright =>
      rw [initialFault?, Option.orElse_eq_orElse, Option.orElse_eq_or,
        Option.or_eq_none_iff] at hrule
      rw [Expr.map, Expr.eval, bind_eq_error] at h
      rcases h with h | ⟨leftValue, _, h⟩
      · exact ihleft hrule.1 h
      · rcases bind_eq_error.mp h with h | ⟨rightValue, _, h⟩
        · exact ihright hrule.2 h
        · exact (Operator.apply_eq_error h).2.2
  | aggregate how withOwn => cases hrule
  | aggregateFrom how senders withOwn => cases hrule
  | other => cases hrule
  | valueFrom sender => cases hrule
  | foreign kind => cases hrule

/-! ## Phases -/

/-- Phases in scope fail only for what can be pinned on the rule of one of them,
on the value that those before it have given. -/
theorem exists_blames_of_runPhases {names : List String} {phases : List (Phase R)}
    (hphases : ∀ phase ∈ phases, phase.rule.Scoped names) {view : View R}
    (hview : view.Provides names) (hhalf : view.hasHalf = true) {error : EvalError}
    (h : Experiment.runPhases view phases = .error error) :
    ∃ own, ∃ phase ∈ phases, phase.rule.Blames { view with own } error := by
  induction phases generalizing view with
  | nil => cases h
  | cons phase rest ih =>
      rw [Experiment.runPhases, bind_eq_error] at h
      rcases h with h | ⟨own, _, h⟩
      · have hscoped := hphases phase List.mem_cons_self
        exact ⟨view.own, phase, List.mem_cons_self, hscoped.blames hview hhalf h⟩
      · have hrest : ∀ phase ∈ rest, phase.rule.Scoped names := by
          intro other hother
          exact hphases other (List.mem_cons_of_mem _ hother)
        have hnext : View.Provides { view with own } names := hview
        obtain ⟨value, other, hother, hblames⟩ := ih hrest hnext hhalf h
        exact ⟨value, other, List.mem_cons_of_mem _ hother, hblames⟩

/-! ## Runs -/

variable {experiment : Experiment R}

/-- A run that stops for an evaluation stops for that of an initial value, of a
round or of the phase at the end. -/
theorem exists_of_run_eq_error {seed : Int} {tolerance : R} {reason : EvalError}
    (h : run experiment seed tolerance = .error (.evaluation reason)) :
    (∃ id, experiment.initialValue id = .error reason) ∨
      (∃ id own inbox round consensus,
        experiment.apply (experiment.view id own inbox) round consensus = .error reason) ∨
      ∃ id own inbox, experiment.applyEnd (experiment.view id own inbox) = .error reason := by
  rcases failsAt_of_run h with h | ⟨_, values, inboxes, _, id, own, hstage, _, _, h⟩
  · exact .inl h
  · cases hstage with
    | round => exact .inr (.inl ⟨id, own, _, _, _, h⟩)
    | afterRound => exact .inr (.inr ⟨id, own, _, h⟩)
    | afterStart => exact .inr (.inr ⟨id, own, _, h⟩)

/-! ## Experiments in scope -/

/-- The names have values in an experiment, and the rules of its phases are in
scope of them. -/
structure InScope (experiment : Experiment R) (names : List String) : Prop where
  numbers : ∀ name ∈ names, (experiment.parameters.lookup name).isSome = true
  phases : ∀ phase ∈ experiment.phases, phase.rule.Scoped names

section InScope

variable {names : List String} (hscope : InScope experiment names)
include hscope

/-- A round fails only for what can be pinned on an active phase. -/
theorem InScope.blames_of_apply {id : Int} {own : R} {inbox : List (Int × R)} {round : Int}
    {consensus : Bool} {error : EvalError}
    (h : experiment.apply (experiment.view id own inbox) round consensus = .error error) :
    ∃ current, ∃ phase ∈ experiment.roundPhases, phase.isActive round consensus = true ∧
      phase.rule.Blames { experiment.view id own inbox with own := current } error := by
  have hactive : ∀ phase ∈ experiment.roundPhases.filter (·.isActive round consensus),
      phase.rule.Scoped names := by
    intro phase hphase
    exact hscope.phases phase (List.mem_of_mem_filter (List.mem_of_mem_filter hphase))
  have hview : (experiment.view id own inbox).Provides names := hscope.numbers
  rw [Experiment.apply] at h
  obtain ⟨current, phase, hphase, hblames⟩ := exists_blames_of_runPhases hactive hview rfl h
  obtain ⟨hmem, hruns⟩ := List.mem_filter.mp hphase
  exact ⟨current, phase, hmem, hruns, hblames⟩

/-- The end fails only for what can be pinned on one of its phases. -/
theorem InScope.blames_of_applyEnd {id : Int} {own : R} {inbox : List (Int × R)}
    {error : EvalError}
    (h : experiment.applyEnd (experiment.view id own inbox) = .error error) :
    ∃ current, ∃ phase ∈ experiment.endPhases,
      phase.rule.Blames { experiment.view id own inbox with own := current } error := by
  have hlast : ∀ phase ∈ experiment.endPhases, phase.rule.Scoped names := by
    intro phase hphase
    exact hscope.phases phase (List.mem_of_mem_filter hphase)
  have hview : (experiment.view id own inbox).Provides names := hscope.numbers
  exact exists_blames_of_runPhases hlast hview rfl h

/-- An initial value fails for a zero divisor only, where a rule that gives it
has no fault. -/
theorem InScope.initialValue_eq_error {protocol : LossyConsensus.Protocol Float} (f : Float → R)
    (hinitial : experiment.initial = (protocol.map f).initial)
    (hrule : ∀ rule, protocol.initial = .rule rule → initialFault? ("i" :: names) rule = none)
    {id : Nat} {error : EvalError} (h : experiment.initialValue id = .error error) :
    error = .divisionByZero := by
  rw [Experiment.initialValue, hinitial, LossyConsensus.Protocol.map] at h
  cases hform : protocol.initial with
  | values values =>
      rw [hform] at h
      cases h
  | rule rule =>
      rw [hform] at h
      refine eval_initial_eq_error (hrule rule hform) f ?_ h
      intro name hname
      rw [List.lookup_cons]
      rcases List.mem_cons.mp hname with rfl | hname
      · rfl
      · split
        · rfl
        · exact hscope.numbers name hname

end InScope

/-! ## Protocols read from a text -/

/-- A well-scoped protocol leaves an experiment in scope of what it declares. -/
theorem inScope_of_ofProtocol {protocol : LossyConsensus.Protocol Float}
    (hscoped : WellScoped protocol) (f : Float → R) {p : R} {rounds : Int}
    {topology : Option (Topology R)} {faults : Option (Fault R)}
    (hbind : Experiment.ofProtocol (protocol.map f) p rounds topology faults = .ok experiment) :
    InScope experiment (Settings.declared protocol.settings) := by
  obtain ⟨hphases, _, hparameters, _⟩ := ofProtocol_eq_ok hbind
  constructor
  case numbers =>
    intro name hname
    obtain ⟨value, hvalue⟩ := hscoped.numbers name hname
    rw [hparameters]
    exact Settings.isSome_lookup_numbers hvalue f
  case phases =>
    rw [hphases]
    intro phase hphase
    obtain ⟨written, hwritten, rfl⟩ := List.mem_map.mp hphase
    exact (hscoped.phases written hwritten).map f

/-- Evaluations of a protocol that was read from a text and bound to an
experiment.  An initial value fails for a zero divisor only.  The rules of a
round, and likewise those at the end, fail only for what can be pinned on a part
of the rule of an active phase: a zero divisor, nothing to aggregate, no or
several other values, no message from a sender, or no leader.  So a run that
stops for an evaluation stops for one of these. -/
theorem evaluation_fails_only_as_declared {text : String}
    {protocol : LossyConsensus.Protocol Float} (hread : readProtocol text = .ok protocol)
    (f : Float → R) {p : R} {rounds : Int} {topology : Option (Topology R)}
    {faults : Option (Fault R)}
    (hbind : Experiment.ofProtocol (protocol.map f) p rounds topology faults = .ok experiment) :
    (∀ id error, experiment.initialValue id = .error error → error = .divisionByZero) ∧
    (∀ id own inbox round consensus error,
      experiment.apply (experiment.view id own inbox) round consensus = .error error →
        error.isOrdinary = true ∧ ∃ current, ∃ phase ∈ experiment.roundPhases,
          phase.isActive round consensus = true ∧
          phase.rule.Blames { experiment.view id own inbox with own := current } error) ∧
    (∀ id own inbox error,
      experiment.applyEnd (experiment.view id own inbox) = .error error →
        error.isOrdinary = true ∧ ∃ current, ∃ phase ∈ experiment.endPhases,
          phase.rule.Blames { experiment.view id own inbox with own := current } error) ∧
    ∀ seed tolerance error,
      run experiment seed tolerance = .error (.evaluation error) → error.isOrdinary = true := by
  have hscoped := wellScoped_of_readProtocol hread
  have hscope := inScope_of_ofProtocol hscoped f hbind
  obtain ⟨_, hinitial, _⟩ := ofProtocol_eq_ok hbind
  have hstart : ∀ id error, experiment.initialValue id = .error error →
      error = .divisionByZero := by
    intro id error h
    exact hscope.initialValue_eq_error f hinitial hscoped.initial h
  refine ⟨hstart, ?_, ?_, ?_⟩
  · intro id own inbox round consensus error h
    obtain ⟨current, phase, hphase, hactive, hblames⟩ := hscope.blames_of_apply h
    exact ⟨hblames.isOrdinary, current, phase, hphase, hactive, hblames⟩
  · intro id own inbox error h
    obtain ⟨current, phase, hphase, hblames⟩ := hscope.blames_of_applyEnd h
    exact ⟨hblames.isOrdinary, current, phase, hphase, hblames⟩
  · intro seed tolerance error h
    rcases exists_of_run_eq_error h with ⟨id, h⟩ | ⟨id, own, inbox, round, consensus, h⟩ |
      ⟨id, own, inbox, h⟩
    · rw [hstart id error h]
      rfl
    · obtain ⟨_, _, _, _, hblames⟩ := hscope.blames_of_apply h
      exact hblames.isOrdinary
    · obtain ⟨_, _, _, hblames⟩ := hscope.blames_of_applyEnd h
      exact hblames.isOrdinary

/-- A text whose rules fail wherever nothing has been received, and whose first
initial value has a zero divisor. -/
def hastyText : String :=
  "PROTOCOL hasty\nPROCESSES: 2\nSTATE: x\nPARAMETERS: k = 1\nINITIAL: x = k / (i - 1)\n" ++
    "UPDATE RULE\nmax(inbox)\nEND: value_from(2)"

/-- The protocol that the hasty text declares. -/
def hasty : LossyConsensus.Protocol Float where
  name := "hasty"
  processes := 2
  initial := .rule (.binary .div (.parameter "k") (.binary .sub (.parameter "i") (.literal 1.0)))
  phases := [{ kind := .eachRound, rule := .assign (.indexed "x") (.aggregate .max false) },
    { kind := .atEnd, rule := .assign (.indexed "x") (.valueFrom 2) }]
  metrics := .both
  settings := [("k", .real 1.0), ("channel_guarantee", .guarantee .none)]
  models := [{ kind := .standard }]
  stateVar := "x"
  domain := none

/-- Each evaluation of the hasty protocol fails as declared: the initial value of
the first process, a round and an end in which it receives nothing, and the
whole run. -/
theorem hasty_fails_only_as_declared :
    ∃ experiment : Experiment Float,
      Experiment.ofProtocol (hasty.map id) Scalar.zero 1 none none = .ok experiment ∧
      experiment.initialValue 1 = .error .divisionByZero ∧
      (∃ error, experiment.apply (experiment.view 1 Scalar.zero []) 1 false = .error error ∧
        error.isOrdinary = true) ∧
      (∃ error, experiment.applyEnd (experiment.view 1 Scalar.zero []) = .error error ∧
        error.isOrdinary = true) ∧
      ∃ error, run experiment 1 Scalar.zero = .error (.evaluation error) ∧
        error.isOrdinary = true := by
  have hread : readProtocol hastyText = .ok hasty := by decide +kernel
  have hbinds : (Experiment.ofProtocol (hasty.map id) Scalar.zero 1 none none).isOk = true := by
    decide +kernel
  obtain ⟨experiment, hbind⟩ := exists_eq_ok hbinds
  obtain ⟨hstart, hround, hend, hrun⟩ := evaluation_fails_only_as_declared hread id hbind
  have hone : experiment.initialValue 1 = .error .divisionByZero := by
    cases hbind
    decide +kernel
  have hinbox : experiment.apply (experiment.view 1 Scalar.zero []) 1 false =
      .error (.emptyAggregate .max) := by
    cases hbind
    rfl
  have hmessage : experiment.applyEnd (experiment.view 1 Scalar.zero []) =
      .error (.noMessageFrom 2 1) := by
    cases hbind
    rfl
  have hstops : run experiment 1 Scalar.zero = .error (.evaluation .divisionByZero) := by
    cases hbind
    refine map_eq_error.mp (?_ : Except.map (fun _ => ()) _ = _)
    decide +kernel
  refine ⟨experiment, hbind, ?_, ?_, ?_, ?_⟩
  · rw [hone, hstart 1 _ hone]
  · exact ⟨_, hinbox, (hround 1 _ _ 1 false _ hinbox).1⟩
  · exact ⟨_, hmessage, (hend 1 _ _ _ hmessage).1⟩
  · exact ⟨_, hstops, hrun 1 _ _ hstops⟩

end LossyConsensus.Simulation
