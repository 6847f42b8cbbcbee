/-
# Runs and the order of inboxes

With exact arithmetic a run goes the same way whatever the order in which messages lie
in the inboxes.  The channel guarantee could put the messages that it makes up for at
any place: every process takes the same values, and a run that fails does so for the
same reason.
-/

import LossyConsensus.Proofs.Network.Contents
import LossyConsensus.Proofs.Protocol.Shuffle
import LossyConsensus.Proofs.Simulation.Pattern
import LossyConsensus.Proofs.Simulation.Reception

namespace LossyConsensus.Simulation

open LossyConsensus.Network LossyConsensus.Protocol LossyConsensus.Random

/-! ## Filling up in another way -/

section Filled

variable {R : Type} [Scalar R]

/-- Fill up inboxes in a way of one's own, as the channel demands. -/
def enforceFilled (fill : Filling R) (experiment : Experiment R) (inboxes : Inboxes R)
    (undelivered : List (Message R)) : Except (RunError R) (Inboxes R) :=
  match experiment.channel with
  | .guarantee guarantee => .ok (fill guarantee experiment.processes inboxes undelivered)
  | setting => .error (.channel setting)

/-- The inboxes of a round, filled up so, and the generator after it. -/
def exchangeFilled (fill : Filling R) (experiment : Experiment R) (network : Network R)
    (values : List R) (round : Int) (generator : Generator) :
    Except (RunError R) (Inboxes R × Generator) := do
  let outbound ← sent experiment network values round
  let (outcome, generator) := deliver network.assignment experiment.p outbound generator
  let filled := Inboxes.ofDelivered experiment.processes outcome.delivered
  let inboxes ← enforceFilled fill experiment filled outcome.undelivered
  return (inboxes, generator)

/-- Play one round with these inboxes. -/
def playRoundFilled (fill : Filling R) (experiment : Experiment R) (network : Network R)
    (tolerance : R) (round : Nat) (values : List R) (generator : Generator) :
    Except (RunError R) (Step R × Generator) := do
  let (inboxes, generator) ← exchangeFilled fill experiment network values round generator
  let step ← settle experiment tolerance round values inboxes
  return (step, generator)

/-- Play `count` rounds so, the first of them numbered `round`. -/
def playRoundsFilled (fill : Filling R) (experiment : Experiment R) (network : Network R)
    (tolerance : R) : Nat → Nat → List R → Generator → Except (RunError R) (List (Step R))
  | 0, _, _, _ => .ok []
  | count + 1, round, values, generator => do
      let (step, generator) ←
        playRoundFilled fill experiment network tolerance round values generator
      let steps ←
        playRoundsFilled fill experiment network tolerance count (round + 1) step.after generator
      return step :: steps

/-- Run an experiment so. -/
def runFilled (fill : Filling R) (experiment : Experiment R) (seed : Int) (tolerance : R) :
    Except (RunError R) (Run R) := do
  let generator ← (Generator.ofSeed seed).mapError .seed
  let network ← Network.ofExperiment experiment
  let start ← initialValues experiment
  let rounds ←
    playRoundsFilled fill experiment network tolerance experiment.rounds 1 start generator
  conclude experiment start rounds

end Filled

/-! ## Steps in no order -/

section Unordered

variable {R : Type}

/-- A step with what its inboxes hold, in no order. -/
structure UnorderedStep (R : Type) where
  round : Nat
  before : List R
  contents : List (Int × Multiset (Message R))
  after : List R
  delivered : Nat
  isEnd : Bool

/-- A run with what the inboxes of its steps hold, in no order. -/
structure UnorderedRun (R : Type) where
  start : List R
  steps : List (UnorderedStep R)

def Step.unordered (step : Step R) : UnorderedStep R where
  round := step.round
  before := step.before
  contents := step.inboxes.contents
  after := step.after
  delivered := step.delivered
  isEnd := step.isEnd

def Run.unordered (run : Run R) : UnorderedRun R where
  start := run.start
  steps := run.steps.map Step.unordered

theorem valuesAfter_eq_of_unordered {start : List R} {steps others : List (Step R)}
    (h : steps.map Step.unordered = others.map Step.unordered) :
    valuesAfter start steps = valuesAfter start others := by
  have hafter : steps.map (·.after) = others.map (·.after) := by
    have hmap := congrArg (List.map UnorderedStep.after) h
    rwa [List.map_map, List.map_map] at hmap
  rw [valuesAfter, valuesAfter, ← List.getLast?_map, ← List.getLast?_map, hafter]

/-- The outcome of a run in numbers knows no order. -/
theorem summary_eq_of_unordered [Scalar R] {run other : Run R}
    (h : run.unordered = other.unordered) (tolerance : R) :
    run.summary tolerance = other.summary tolerance := by
  obtain ⟨start, steps⟩ := run
  obtain ⟨start', steps'⟩ := other
  rw [Run.unordered, Run.unordered, UnorderedRun.mk.injEq] at h
  obtain ⟨rfl, hsteps⟩ := h
  have hfinal : valuesAfter start steps = valuesAfter start steps' :=
    valuesAfter_eq_of_unordered hsteps
  have hdiscrepancies : steps.map (fun step => discrepancy step.after) =
      steps'.map (fun step => discrepancy step.after) := by
    have hmap := congrArg (List.map fun step => discrepancy step.after) hsteps
    rwa [List.map_map, List.map_map] at hmap
  have hdelivered : ((steps.filter fun step => !step.isEnd).map (·.delivered)) =
      (steps'.filter fun step => !step.isEnd).map (·.delivered) := by
    have hmap := congrArg (fun steps : List (UnorderedStep R) =>
      (steps.filter fun step => !step.isEnd).map (·.delivered)) hsteps
    simp only [List.filter_map, List.map_map] at hmap
    exact hmap
  simp only [Run.summary, Run.finalValues, Run.rounds, hfinal, hdiscrepancies, hdelivered]

/-- The phase at the end finds what the last round has left. -/
theorem contents_lastInboxes {experiment : Experiment R} {rounds others : List (Step R)}
    (h : rounds.map Step.unordered = others.map Step.unordered) :
    (lastInboxes experiment rounds).contents = (lastInboxes experiment others).contents := by
  have hlast : ∀ rounds : List (Step R), (lastInboxes experiment rounds).contents =
      ((rounds.map Step.unordered).getLast?.map (·.contents)).getD
        (Inboxes.empty experiment.processes).contents := by
    intro rounds
    rw [lastInboxes, List.getLast?_map]
    cases rounds.getLast? with
    | none => rfl
    | some last => rfl
  rw [hlast, hlast, h]

end Unordered

/-! ## Runs in no order -/

/-- Phases in a row give the same value whatever the order of the inbox. -/
theorem Experiment.runPhases_shuffled {view : View ℚ} {inbox : List (Int × ℚ)}
    (hperm : inbox.Perm view.inbox) (hone : view.senders.Nodup) (phases : List (Phase ℚ)) :
    runPhases { view with inbox } phases = runPhases view phases := by
  induction phases generalizing view with
  | nil => rfl
  | cons phase rest ih =>
      rw [runPhases, runPhases, phase.rule.eval_shuffled hperm hone]
      cases phase.rule.eval view with
      | error reason => rfl
      | ok own => exact @ih { view with own } hperm hone

variable {experiment : Experiment ℚ} {network : Network ℚ} {fill : Filling ℚ}

section Step

variable {inboxes others : Inboxes ℚ} (hcontents : inboxes.contents = others.contents)
  (hone : ∀ id, ((others.get id).map (·.sender)).Nodup)

include hcontents hone

/-- So every process takes the same value. -/
theorem commit_eq_of_contents (round : Nat) (values : List ℚ) (phases : List (Phase ℚ)) :
    commit experiment round inboxes values (Experiment.runPhases · phases) =
      commit experiment round others values (Experiment.runPhases · phases) := by
  have hnext : ∀ (id : Int) (own : ℚ),
      Experiment.runPhases (experiment.view id own (packed (inboxes.get id))) phases =
        Experiment.runPhases (experiment.view id own (packed (others.get id))) phases := by
    intro id own
    have hperm := (Inboxes.get_perm_of_contents hcontents id).map fun message =>
      (message.sender, message.payload)
    have hsenders : (experiment.view id own (packed (others.get id))).senders.Nodup := by
      rw [View.senders, Experiment.view, packed, List.map_map]
      exact hone id
    exact Experiment.runPhases_shuffled hperm hsenders phases
  simp only [commit, hnext]

theorem settle_unordered (tolerance : ℚ) (round : Nat) (values : List ℚ) :
    (settle experiment tolerance round values inboxes).map Step.unordered =
      (settle experiment tolerance round values others).map Step.unordered := by
  have hcommit : commit experiment round inboxes values
        (fun view => experiment.apply view round (isConsensus tolerance values)) =
      commit experiment round others values
        (fun view => experiment.apply view round (isConsensus tolerance values)) :=
    commit_eq_of_contents hcontents hone round values _
  rw [settle, settle, hcommit]
  refine map_bind_congr_right fun after _ => congrArg Except.ok ?_
  rw [Step.unordered, Step.unordered, hcontents, Inboxes.size_eq_of_contents hcontents]

theorem playEnd_unordered (values : List ℚ) :
    (playEnd experiment values inboxes).map Step.unordered =
      (playEnd experiment values others).map Step.unordered := by
  have hcommit : commit experiment (experiment.rounds + 1) inboxes values experiment.applyEnd =
      commit experiment (experiment.rounds + 1) others values experiment.applyEnd :=
    commit_eq_of_contents hcontents hone _ values experiment.endPhases
  rw [playEnd, playEnd, hcommit]
  refine map_bind_congr_right fun after _ => congrArg Except.ok ?_
  rw [Step.unordered, Step.unordered, hcontents]

end Step

section Run

variable (hfill : fill.FillsAlike) (hnetwork : Network.ofExperiment experiment = .ok network)

include hfill

theorem exchangeFilled_contents (values : List ℚ) (round : Int) (generator : Generator) :
    (exchangeFilled fill experiment network values round generator).map
        (fun (inboxes, next) => (inboxes.contents, next)) =
      (exchange experiment network values round generator).map
        (fun (inboxes, next) => (inboxes.contents, next)) := by
  have henforce : ∀ filled undelivered,
      (enforceFilled fill experiment filled undelivered).map Inboxes.contents =
        (enforce experiment filled undelivered).map Inboxes.contents := by
    intro filled undelivered
    rw [enforceFilled, enforce]
    cases experiment.channel with
    | guarantee guarantee => exact congrArg Except.ok (hfill _ _ _ _)
    | real value => rfl
    | process id => rfl
  refine map_bind_congr_right fun outbound _ => ?_
  refine map_bind_congr (henforce _ _) fun inboxes inboxes' _ _ hcontents => ?_
  exact congrArg (fun contents => Except.ok (contents, _)) hcontents

include hnetwork

theorem playRoundFilled_unordered (tolerance : ℚ) (round : Nat) {values : List ℚ}
    (hlength : values.length = experiment.processes) (generator : Generator) :
    (playRoundFilled fill experiment network tolerance round values generator).map
        (fun (step, next) => (step.unordered, next)) =
      (playRound experiment network tolerance round values generator).map
        (fun (step, next) => (step.unordered, next)) := by
  rw [playRound_eq_settle]
  refine map_bind_congr (exchangeFilled_contents hfill values round generator) ?_
  rintro ⟨inboxes, next⟩ ⟨inboxes', next'⟩ _ hexchange h
  obtain ⟨hcontents, rfl⟩ := Prod.mk.inj h
  have hfaithful := faithful_of_exchange hnetwork hlength hexchange
  refine map_bind_congr (settle_unordered hcontents hfaithful.oneEach tolerance round values) ?_
  intro step step' _ _ hstep
  exact congrArg (fun unordered => Except.ok (unordered, next)) hstep

/-- Round by round, the values and the generator are the same. -/
theorem playRoundsFilled_unordered (tolerance : ℚ) (count round : Nat) {values : List ℚ}
    (hlength : values.length = experiment.processes) (generator : Generator) :
    (playRoundsFilled fill experiment network tolerance count round values generator).map
        (List.map Step.unordered) =
      (playRounds experiment network tolerance count round values generator).map
        (List.map Step.unordered) := by
  induction count generalizing round values generator with
  | zero => rfl
  | succ count ih =>
      refine map_bind_congr
        (playRoundFilled_unordered hfill hnetwork tolerance round hlength generator) ?_
      rintro ⟨step, next⟩ ⟨step', next'⟩ _ hround h
      obtain ⟨hstep, rfl⟩ := Prod.mk.inj h
      have hafter : step.after = step'.after := congrArg UnorderedStep.after hstep
      obtain ⟨_, _, _, _, hkept, _⟩ := playRound_eq_ok hround
      dsimp only
      rw [hafter]
      refine map_bind_congr (ih (round + 1) (hkept.trans hlength) next) ?_
      intro steps steps' _ _ hsteps
      refine congrArg Except.ok ?_
      rw [List.map_cons, List.map_cons, hstep, hsteps]

end Run

/-- A run ends the same way after rounds that are the same but for the order. -/
theorem conclude_unordered {start : List ℚ} {rounds others : List (Step ℚ)}
    (h : rounds.map Step.unordered = others.map Step.unordered)
    (hone : experiment.hasEnd = true →
      ∀ id, (((lastInboxes experiment others).get id).map (·.sender)).Nodup) :
    (conclude experiment start rounds).map Run.unordered =
      (conclude experiment start others).map Run.unordered := by
  have hvalues : valuesAfter start rounds = valuesAfter start others :=
    valuesAfter_eq_of_unordered h
  rw [conclude, conclude, hvalues]
  by_cases hend : experiment.hasEnd = true
  · rw [if_pos hend, if_pos hend]
    refine map_bind_congr
      (playEnd_unordered (contents_lastInboxes h) (hone hend) (valuesAfter start others)) ?_
    intro last last' _ _ hlast
    refine congrArg Except.ok ?_
    rw [Run.unordered, Run.unordered, List.map_append, List.map_append, List.map_singleton,
      List.map_singleton, h, hlast]
  · rw [if_neg hend, if_neg hend]
    refine congrArg Except.ok ?_
    rw [Run.unordered, Run.unordered, h]

/-- A run goes the same way if the same messages fill up its inboxes in another order. -/
theorem runFilled_unordered (hfill : fill.FillsAlike) (experiment : Experiment ℚ) (seed : Int)
    (tolerance : ℚ) :
    (runFilled fill experiment seed tolerance).map Run.unordered =
      (run experiment seed tolerance).map Run.unordered := by
  refine map_bind_congr_right fun generator hgenerator => ?_
  refine map_bind_congr_right fun network hnetwork => ?_
  refine map_bind_congr_right fun start hstart => ?_
  refine map_bind_congr (playRoundsFilled_unordered hfill hnetwork tolerance _ 1
    (length_initialValues hstart) generator) ?_
  intro rounds rounds' _ hrounds h
  refine conclude_unordered h fun hend id => ?_
  have hstage := (stage_of_playRounds hnetwork (mapError_eq_ok.mp hgenerator) hstart hrounds hend).2
  exact (hstage.senders id).1

/-- Inboxes that are filled up by the top-up are those of a run. -/
theorem runFilled_topUp {R : Type} [Scalar R] (experiment : Experiment R) (seed : Int)
    (tolerance : R) :
    runFilled (placing (· ++ ·)) experiment seed tolerance = run experiment seed tolerance := by
  have henforce : ∀ filled undelivered,
      enforceFilled (placing (· ++ ·)) experiment filled undelivered =
        enforce experiment filled undelivered := by
    intro filled undelivered
    rw [enforceFilled, enforce]
    cases experiment.channel with
    | guarantee guarantee => exact congrArg Except.ok (placing_append _ _ _ _)
    | real value => rfl
    | process id => rfl
  have hexchange : ∀ network values round generator,
      exchangeFilled (placing (· ++ ·)) experiment network values round generator =
        exchange experiment network values round generator := by
    intro network values round generator
    simp only [exchangeFilled, exchange, henforce]
  have hround : ∀ network round values generator,
      playRoundFilled (placing (· ++ ·)) experiment network tolerance round values generator =
        playRound experiment network tolerance round values generator := by
    intro network round values generator
    rw [playRoundFilled, hexchange, playRound_eq_settle]
  have hrounds : ∀ network count round values generator,
      playRoundsFilled (placing (· ++ ·)) experiment network tolerance count round values
          generator =
        playRounds experiment network tolerance count round values generator := by
    intro network count
    induction count with
    | zero => exact fun _ _ _ => rfl
    | succ count ih =>
        intro round values generator
        simp only [playRoundsFilled, playRounds, hround, ih]
  simp only [runFilled, run, hrounds]
  rfl

/-- The order of the messages in an inbox never matters.  Where nobody has sent two of
them, every expression, predicate and rule has the same value in a view whose inbox is
in another order, or fails for the same reason; so wherever in the inboxes the top-up
puts messages, a run goes the same way. -/
theorem inbox_order_never_matters :
    (∀ (view : View ℚ) (inbox : List (Int × ℚ)), view.senders.Nodup → inbox.Perm view.inbox →
      (∀ expr : Expr ℚ, expr.eval { view with inbox } = expr.eval view) ∧
      (∀ predicate : Predicate ℚ, predicate.eval { view with inbox } = predicate.eval view) ∧
      ∀ rule : Rule ℚ, rule.eval { view with inbox } = rule.eval view) ∧
    ∀ place : List (Message ℚ) → List (Message ℚ) → List (Message ℚ),
      (∀ inbox taken, (place inbox taken).Perm (inbox ++ taken)) →
      ∀ (experiment : Experiment ℚ) (seed : Int) (tolerance : ℚ),
        (runFilled (placing place) experiment seed tolerance).map Run.unordered =
          (run experiment seed tolerance).map Run.unordered ∧
        (runFilled (placing place) experiment seed tolerance).map (·.summary tolerance) =
          (run experiment seed tolerance).map (·.summary tolerance) := by
  refine ⟨?_, ?_⟩
  · intro view inbox hone hperm
    exact ⟨Expr.eval_shuffled hperm hone, Predicate.eval_shuffled hperm hone,
      Rule.eval_shuffled hperm hone⟩
  · intro place hplace experiment seed tolerance
    have hrun := runFilled_unordered (fillsAlike_placing hplace) experiment seed tolerance
    refine ⟨hrun, ?_⟩
    rcases map_eq_map.mp hrun with ⟨fault, hfilled, hplain⟩ | ⟨filled, plain, hfilled, hplain, h⟩
    · rw [hfilled, hplain]
    · rw [hfilled, hplain]
      exact congrArg Except.ok (summary_eq_of_unordered h tolerance)

/-- Three processes that take averages, each of which is promised two messages. -/
def toppedTrio : Experiment ℚ where
  name := "topped trio"
  processes := 3
  rounds := 1
  p := 1 / 2
  phases := [{ kind := .eachRound, rule := .combine .average }]
  leader := none
  parameters := []
  initial := .values [3, 4, 8]
  models := []
  channel := .guarantee .majority
  topology := none
  faults := none

/-- The first process receives a message and is made up for another one, which a top-up
at the front puts ahead of it.  It takes the same value, and it could use neither of the
two as the only one that differs. -/
theorem toppedTrio_order_never_matters :
    let view : View ℚ := { own := 3, before := 3, inbox := [(3, 8), (2, 4)], processes := 3 }
    let rule : Rule ℚ := .onlyIf .receivedAll (.assign (.plain "x") .other)
    let atFront : List (Message ℚ) → List (Message ℚ) → List (Message ℚ) :=
      fun inbox taken => taken ++ inbox
    let seen (played : Except (RunError ℚ) (Run ℚ)) :=
      played.map fun finished => finished.steps.map fun step => packed (step.inboxes.get 1)
    seen (run toppedTrio 3 0) = .ok [view.inbox] ∧
      seen (runFilled (placing atFront) toppedTrio 3 0) = .ok [[(2, 4), (3, 8)]] ∧
      rule.eval { view with inbox := [(2, 4), (3, 8)] } = rule.eval view ∧
      rule.eval view = .error (.severalDiffer 2) ∧
      (runFilled (placing atFront) toppedTrio 3 0).map (·.summary 0) =
        (run toppedTrio 3 0).map (·.summary 0) := by
  intro view rule atFront seen
  obtain ⟨heval, hruns⟩ := inbox_order_never_matters
  refine ⟨by decide +kernel, by decide +kernel, ?_, by decide +kernel, ?_⟩
  · exact (heval view [(2, 4), (3, 8)] (by decide) (by decide)).2.2 rule
  · exact (hruns atFront (fun _ _ => List.perm_append_comm) toppedTrio 3 0).2

end LossyConsensus.Simulation
