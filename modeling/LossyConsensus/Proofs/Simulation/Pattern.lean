/-
# Runs under given outcomes

What a run does with randomness is to decide for each message whether it arrives.
So one can play a run under any pattern of outcomes, a row of flags for each round,
and a run from a seed is the one under the pattern that its draws make.
-/

import LossyConsensus.Proofs.Network.Enumeration
import LossyConsensus.Proofs.Simulation.Step
import Mathlib.Algebra.BigOperators.Fin
import Mathlib.Algebra.Field.Rat

namespace LossyConsensus.Simulation

open LossyConsensus.Network LossyConsensus.Protocol LossyConsensus.Random

variable {R : Type} [Scalar R]

/-! ## Playing under a pattern -/

/-- The inboxes of a round in which flags decide which of the messages sent
arrive. -/
def exchangeBy (experiment : Experiment R) (network : Network R) (values : List R) (round : Int)
    (flags : List Bool) : Except (RunError R) (Inboxes R) := do
  let outbound ← sent experiment network values round
  let outcome := divide outbound flags
  enforce experiment (Inboxes.ofDelivered experiment.processes outcome.delivered)
    outcome.undelivered

/-- What a round does with the inboxes that it fills. -/
def settle (experiment : Experiment R) (tolerance : R) (round : Nat) (values : List R)
    (inboxes : Inboxes R) : Except (RunError R) (Step R) := do
  let consensus := isConsensus tolerance values
  let after ← commit experiment round inboxes values fun view =>
    experiment.apply view round consensus
  return { round, before := values, inboxes, after, delivered := inboxes.size }

/-- A round is an exchange of messages, and what it does with the inboxes. -/
theorem playRound_eq_settle (experiment : Experiment R) (network : Network R) (tolerance : R)
    (round : Nat) (values : List R) (generator : Generator) :
    playRound experiment network tolerance round values generator = do
      let (inboxes, next) ← exchange experiment network values round generator
      let step ← settle experiment tolerance round values inboxes
      return (step, next) := by
  simp only [playRound, settle, bind_assoc, pure_bind]

/-- Play one round under given outcomes. -/
def playRoundBy (experiment : Experiment R) (network : Network R) (tolerance : R) (round : Nat)
    (values : List R) (flags : List Bool) : Except (RunError R) (Step R) := do
  let inboxes ← exchangeBy experiment network values round flags
  settle experiment tolerance round values inboxes

/-- Play a round for each row of a pattern. -/
def playRoundsBy (experiment : Experiment R) (network : Network R) (tolerance : R) :
    List (List Bool) → Nat → List R → Except (RunError R) (List (Step R))
  | [], _, _ => .ok []
  | flags :: pattern, round, values => do
      let step ← playRoundBy experiment network tolerance round values flags
      let steps ← playRoundsBy experiment network tolerance pattern (round + 1) step.after
      return step :: steps

/-- End a run after its rounds. -/
def conclude (experiment : Experiment R) (start : List R) (rounds : List (Step R)) :
    Except (RunError R) (Run R) :=
  if experiment.hasEnd then do
    let last ← playEnd experiment (valuesAfter start rounds) (lastInboxes experiment rounds)
    return { start, steps := rounds ++ [last] }
  else
    return { start, steps := rounds }

/-- Run an experiment under a pattern of outcomes. -/
def runBy (experiment : Experiment R) (tolerance : R) (pattern : List (List Bool)) :
    Except (RunError R) (Run R) := do
  let network ← Network.ofExperiment experiment
  let start ← initialValues experiment
  let rounds ← playRoundsBy experiment network tolerance pattern 1 start
  conclude experiment start rounds

/-! ## Drawn patterns -/

/-- The pattern that the draws of a model make, where every process sends to all
others in each round. -/
def drawnPattern (model : Model) (p : R) (count : Nat) : Nat → Generator → List (List Bool)
  | 0, _ => []
  | rounds + 1, generator =>
      let (flags, generator) := model.sampleBatches p (count - 1) count generator
      flags :: drawnPattern model p count rounds generator

variable {experiment : Experiment R} {network : Network R} {tolerance : R} {model : Model}

/-- A drawn pattern has a row for each round, and a flag for each slot. -/
theorem length_drawnPattern (model : Model) (p : R) (count rounds : Nat)
    (generator : Generator) :
    (drawnPattern model p count rounds generator).length = rounds ∧
      ∀ row ∈ drawnPattern model p count rounds generator,
        row.length = count * (count - 1) := by
  induction rounds generalizing generator with
  | zero => exact ⟨rfl, fun _ hrow => (List.not_mem_nil hrow).elim⟩
  | succ rounds ih =>
      obtain ⟨hlength, hrest⟩ := ih (model.sampleBatches p (count - 1) count generator).2
      exact ⟨congrArg (· + 1) hlength,
        List.forall_mem_cons.mpr ⟨length_sampleBatches model p _ _ generator, hrest⟩⟩

/-- Where there is neither a topology nor a fault, all of a flood is sent. -/
theorem sent_eq_flood (hopen : network.neighbors = none) (hclean : experiment.faults = none)
    (values : List R) (round : Int) :
    sent experiment network values round = .ok (flood values) := by
  have hall : (flood values).filter network.connects = flood values := by
    refine List.filter_eq_self.mpr fun message _ => ?_
    rw [Network.connects, hopen]
  rw [sent, hclean, hall]

theorem length_after_of_playRoundBy {round : Nat} {values : List R} {flags : List Bool}
    {step : Step R}
    (h : playRoundBy experiment network tolerance round values flags = .ok step) :
    step.after.length = values.length := by
  obtain ⟨inboxes, _, h⟩ := bind_eq_ok.mp h
  obtain ⟨after, hafter, h⟩ := bind_eq_ok.mp h
  obtain rfl := pure_eq_ok.mp h
  exact length_commit hafter

section Common

variable (hopen : network.neighbors = none) (hclean : experiment.faults = none)
  (hmodel : ∀ id ∈ processIds experiment.processes, network.assignment.model id = model)

include hopen hclean hmodel

/-- An exchange between all processes is the one under the flags that it draws. -/
theorem exchange_eq_exchangeBy {values : List R} (hlength : values.length = experiment.processes)
    (round : Int) (generator : Generator) :
    exchange experiment network values round generator = do
      let (flags, next) :=
        model.sampleBatches experiment.p (experiment.processes - 1) experiment.processes generator
      let inboxes ← exchangeBy experiment network values round flags
      return (inboxes, next) := by
  rw [← hlength] at hmodel
  have hdeliver := deliver_flood experiment.p values hmodel generator
  rw [hlength] at hdeliver
  simp only [exchange, exchangeBy, sent_eq_flood hopen hclean, ok_bind, hdeliver]

theorem playRound_eq_playRoundBy (round : Nat) {values : List R}
    (hlength : values.length = experiment.processes) (generator : Generator) :
    playRound experiment network tolerance round values generator = do
      let (flags, next) :=
        model.sampleBatches experiment.p (experiment.processes - 1) experiment.processes generator
      let step ← playRoundBy experiment network tolerance round values flags
      return (step, next) := by
  simp only [playRound_eq_settle, playRoundBy,
    exchange_eq_exchangeBy hopen hclean hmodel hlength, bind_assoc, pure_bind]

/-- Rounds between all processes are those under the pattern that they draw. -/
theorem playRounds_eq_playRoundsBy (count round : Nat) {values : List R}
    (hlength : values.length = experiment.processes) (generator : Generator) :
    playRounds experiment network tolerance count round values generator =
      playRoundsBy experiment network tolerance
        (drawnPattern model experiment.p experiment.processes count generator) round values := by
  induction count generalizing round values generator with
  | zero => rfl
  | succ count ih =>
      simp only [playRounds, drawnPattern, playRoundsBy,
        playRound_eq_playRoundBy hopen hclean hmodel round hlength, bind_assoc, pure_bind]
      cases hstep : playRoundBy experiment network tolerance round values
          (model.sampleBatches experiment.p (experiment.processes - 1) experiment.processes
            generator).1 with
      | error fault => rfl
      | ok step =>
          rw [ok_bind, ok_bind, ih]
          exact (length_after_of_playRoundBy hstep).trans hlength

end Common

/-- Without a topology a network is nothing but its delivery models. -/
theorem ofExperiment_of_open (hopen : experiment.topology = none)
    (h : Network.ofExperiment experiment = .ok network) :
    Assignment.ofSpecs experiment.models experiment.processes = .ok network.assignment ∧
      network.neighbors = none := by
  rw [Network.ofExperiment, bind_eq_ok, hopen] at h
  obtain ⟨assignment, hassignment, h⟩ := h
  cases h
  exact ⟨mapError_eq_ok.mp hassignment, rfl⟩

/-- A run between all processes, who have one delivery model in common, is the one
under the pattern that it draws. -/
theorem run_eq_runBy (hopen : experiment.topology = none) (hclean : experiment.faults = none)
    (hmodel : ∀ assignment, Assignment.ofSpecs experiment.models experiment.processes =
      .ok assignment → ∀ id ∈ processIds experiment.processes, assignment.model id = model)
    (seed : Int) (tolerance : R) :
    run experiment seed tolerance =
      (Generator.ofSeed seed).mapError .seed >>= fun generator => runBy experiment tolerance
        (drawnPattern model experiment.p experiment.processes experiment.rounds generator) := by
  rw [run]
  cases (Generator.ofSeed seed).mapError RunError.seed with
  | error fault => rfl
  | ok generator =>
      rw [ok_bind, ok_bind, runBy]
      cases hnetwork : Network.ofExperiment experiment with
      | error fault => rfl
      | ok network =>
          rw [ok_bind, ok_bind]
          obtain ⟨hassignment, hneighbors⟩ := ofExperiment_of_open hopen hnetwork
          cases hstart : initialValues experiment with
          | error fault => rfl
          | ok start =>
              rw [ok_bind, ok_bind, playRounds_eq_playRoundsBy hneighbors hclean
                (hmodel _ hassignment) _ _ (length_initialValues hstart)]
              rfl

/-! ## Weighing patterns -/

/-- Which of a number of slots arrive in each of a number of rounds. -/
abbrev Pattern (rounds slots : Nat) := Fin rounds → Fin slots → Bool

namespace Pattern

variable {rounds slots : Nat}

/-- A pattern as the rows of flags that a run is played under. -/
def rows (pattern : Pattern rounds slots) : List (List Bool) :=
  List.ofFn fun round => List.ofFn (pattern round)

/-- The probability of a row of independent slots, each of which arrives with
probability `p`. -/
def rowWeight (p : ℚ) (row : Fin slots → Bool) : ℚ :=
  ∏ slot, if row slot then p else 1 - p

/-- The probability of a pattern of independent slots. -/
def weight (p : ℚ) (pattern : Pattern rounds slots) : ℚ :=
  ∏ round, rowWeight p (pattern round)

theorem rows_cons (row : Fin slots → Bool) (rest : Pattern rounds slots) :
    rows (Fin.cons row rest : Pattern (rounds + 1) slots) = List.ofFn row :: rows rest := by
  simp [rows, List.ofFn_succ]

theorem weight_cons (p : ℚ) (row : Fin slots → Bool) (rest : Pattern rounds slots) :
    weight p (Fin.cons row rest : Pattern (rounds + 1) slots) =
      rowWeight p row * weight p rest := by
  simp [weight, Fin.prod_univ_succ]

/-- A sum over patterns runs over the first row and the others. -/
theorem sum_succ (f : Pattern (rounds + 1) slots → ℚ) :
    ∑ pattern, f pattern = ∑ row, ∑ rest : Pattern rounds slots, f (Fin.cons row rest) := by
  rw [← Fintype.sum_prod_type', ← (Fin.consEquiv fun _ => Fin slots → Bool).sum_comp]
  rfl

/-- Rows of the right number and length are those of a pattern. -/
theorem exists_rows_eq {flags : List (List Bool)} (hrounds : flags.length = rounds)
    (hslots : ∀ row ∈ flags, row.length = slots) :
    ∃ pattern : Pattern rounds slots, pattern.rows = flags := by
  induction flags generalizing rounds with
  | nil =>
      subst hrounds
      exact ⟨fun round => round.elim0, rfl⟩
  | cons row rest ih =>
      subst hrounds
      obtain ⟨hrow, hrest⟩ := List.forall_mem_cons.mp hslots
      obtain ⟨pattern, hpattern⟩ := ih rfl hrest
      subst hrow
      refine ⟨Fin.cons row.get pattern, ?_⟩
      rw [rows_cons, hpattern, List.ofFn_get]

end Pattern

end LossyConsensus.Simulation
