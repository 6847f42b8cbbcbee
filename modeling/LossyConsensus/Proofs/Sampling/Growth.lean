/-
# Delivery depends on the channel alone

Runs from one seed whose experiments share their channel take the same draws,
whatever they compute.  A greater probability therefore fills more slots of
every round, meets more demands, and lets a trial count more runs with fewer
attempts.  Comparing protocols or probabilities from one seed rests on this.
-/

import LossyConsensus.Proofs.Sampling.Batch
import LossyConsensus.Proofs.Sampling.Trial
import LossyConsensus.Proofs.Scalar.Double
import LossyConsensus.Proofs.Simulation.Coupling

namespace LossyConsensus.Sampling

open LossyConsensus.Network LossyConsensus.Protocol LossyConsensus.Simulation

variable {R : Type} [Scalar R]

/-! ## Trials that end -/

theorem ended_of_scanRuns {experiment : Experiment R} {config : Config R} {assignment : Assignment}
    {found : Scan (Summary R)} (h : scanRuns experiment config assignment = .ok found) :
    found.Ended (attempt experiment config.tolerance) (meetsDemands assignment)
      config.repetitions.toNat (attemptBudget config assignment).toNat config.seed := by
  rw [scanRuns, maxAttempts_eq_toNat, isValid_eq_meetsDemands] at h
  split at h
  · exact ended_of_scanParallel h
  · exact ended_of_scan h

theorem exists_scanRuns_of_allSucceed {experiment : Experiment R} {config : Config R}
    {assignment : Assignment} (hall : AllSucceed (attempt experiment config.tolerance) config.seed
      (attemptBudget config assignment).toNat) :
    ∃ found, scanRuns experiment config assignment = .ok found := by
  rw [scanRuns, maxAttempts_eq_toNat, isValid_eq_meetsDemands]
  split
  · exact exists_scanParallel_of_allSucceed hall _
  · exact exists_scan_of_allSucceed hall

theorem runs_of_finds {experiment : Experiment R} {config : Config R} {assignment : Assignment}
    {found : Scan (Summary R)} {wanted budget : Nat}
    (h : found.Finds (attempt experiment config.tolerance) (meetsDemands assignment) wanted budget
      config.seed) :
    ∀ pair ∈ found.valid, ∃ finished, run experiment pair.1 config.tolerance = .ok finished ∧
      pair.2 = finished.summary config.tolerance := by
  intro pair hpair
  obtain ⟨finished, hrun, hsummary⟩ := map_eq_ok.mp (h.outcomes pair hpair)
  exact ⟨finished, hrun, hsummary.symm⟩

/-- A trial has a result if no run within its budget fails. -/
theorem exists_sample_of_allSucceed {experiment : Experiment R} {config : Config R} (limit : Int)
    {assignment : Assignment} (hassignment : assignmentOf experiment = .ok assignment)
    (hall : AllSucceed (attempt experiment config.tolerance) config.seed
      (attemptBudget config assignment).toNat) :
    ∃ trial, sample experiment config limit = .ok trial := by
  obtain ⟨found, hscan⟩ := exists_scanRuns_of_allSucceed hall
  obtain ⟨trial, htrial, _⟩ := exists_sample limit hassignment hscan
    (runs_of_finds (ended_of_scanRuns hscan).finds)
  exact ⟨trial, htrial⟩

/-- What a trial is made of: a scan, the statistics of the runs that it has found, and
the records of the first of them. -/
theorem sample_parts {experiment : Experiment R} {config : Config R} {limit : Int}
    {trial : Trial R} (h : sample experiment config limit = .ok trial) :
    ∃ assignment found, assignmentOf experiment = .ok assignment ∧
      scanRuns experiment config assignment = .ok found ∧
      aggregate experiment.p config.tolerance
        (found.valid.map fun pair => Observation.ofSummary pair.2) found.attempts
        config.repetitions experiment.traceLength = .ok trial.result ∧
      replay experiment config (takeBefore limit (found.valid.map (·.1))) = .ok trial.traced := by
  rw [sample, bind_eq_ok] at h
  obtain ⟨assignment, hassignment, h⟩ := h
  obtain ⟨found, hscan, h⟩ := bind_eq_ok.mp h
  obtain ⟨traced, htraced, h⟩ := bind_eq_ok.mp h
  obtain ⟨result, hresult, h⟩ := bind_eq_ok.mp h
  obtain rfl := pure_eq_ok.mp h
  exact ⟨assignment, found, mapError_eq_ok.mp hassignment, mapError_eq_ok.mp hscan,
    mapError_eq_ok.mp hresult, mapError_eq_ok.mp htraced⟩

/-- A trial with a result has ended a scan, whose numbers are its own. -/
theorem exists_scan_of_sample {experiment : Experiment R} {config : Config R} {limit : Int}
    {trial : Trial R} (h : sample experiment config limit = .ok trial) :
    ∃ assignment found, assignmentOf experiment = .ok assignment ∧
      scanRuns experiment config assignment = .ok found ∧
      trial.result.repetitions = found.valid.length ∧ trial.result.attempts = found.attempts := by
  obtain ⟨assignment, found, hassignment, hscan, _⟩ := sample_parts h
  obtain ⟨other, hother, hrepetitions, hattempts, _⟩ := exists_sample limit hassignment hscan
    (runs_of_finds (ended_of_scanRuns hscan).finds)
  obtain rfl : trial = other := Except.ok.inj (h.symm.trans hother)
  exact ⟨assignment, found, hassignment, hscan, hrepetitions, hattempts⟩

/-! ## Two probabilities -/

variable [LawfulScalar R]

/-- A seed that is valid at a probability is valid at a greater one, as far as
its run does not fail. -/
theorem isValidSeed_of_le {experiment : Experiment R} {p : R}
    (hp : Scalar.le experiment.p p = true) {tolerance : R} {assignment : Assignment} {seed : Int}
    {summary : Summary R}
    (hsucceeds : attempt { experiment with p } tolerance seed = .ok summary)
    (hvalid : isValidSeed (attempt experiment tolerance) (meetsDemands assignment) seed = true) :
    isValidSeed (attempt { experiment with p } tolerance) (meetsDemands assignment) seed =
      true := by
  rw [isValidSeed] at hvalid
  split at hvalid
  · next summary₀ hsucceeds₀ =>
    obtain ⟨finished, hrun, rfl⟩ := map_eq_ok.mp hsucceeds₀
    obtain ⟨finished', hrun', rfl⟩ := map_eq_ok.mp hsucceeds
    have hcoupled := (sameChannel_withProbability experiment p).coupledRuns hp hrun hrun'
    rw [isValidSeed, hsucceeds]
    simp only [meetsDemands, Assignment.isMet, List.all_eq_true] at hvalid ⊢
    exact fun id hid => hcoupled.demands _ (hvalid id hid)
  · cases hvalid

/-- Delivery depends on the channel alone and grows with the probability.

Take two experiments that agree in their processes, rounds, delivery models,
channel guarantee, topology and faults, at a probability and one that is no
smaller, whatever their rules, parameters and initial values are.  If their runs
from one seed both end, they are coupled round by round: the slots that the
delivery models fill in the first run are filled in the second one, the same ones
if the probabilities are equal; the messages counted in each round are no more;
and each demand that the first run meets is met by the second one.

So a trial of one experiment at the greater probability counts no fewer runs in
no more attempts; both trials have a result if no run within their budget
fails. -/
theorem delivery_grows_with_probability_alone :
    (∀ first second : Experiment R, SameChannel first second →
      Scalar.le first.p second.p = true → ∀ (seed : Int) (tolerance tolerance' : R)
        (finished finished' : Run R), run first seed tolerance = .ok finished →
        run second seed tolerance' = .ok finished' →
        CoupledRuns first second seed tolerance tolerance' finished finished') ∧
    ∀ (experiment : Experiment R) (p : R), Scalar.le experiment.p p = true →
      ∀ (config : Config R) (limit limit' : Int),
        (∀ trial trial', sample experiment config limit = .ok trial →
          sample { experiment with p } config limit' = .ok trial' →
          trial.result.repetitions ≤ trial'.result.repetitions ∧
            trial'.result.attempts ≤ trial.result.attempts) ∧
        ∀ assignment, assignmentOf experiment = .ok assignment →
          AllSucceed (attempt experiment config.tolerance) config.seed
            (attemptBudget config assignment).toNat →
          AllSucceed (attempt { experiment with p } config.tolerance) config.seed
            (attemptBudget config assignment).toNat →
          ∃ trial trial', sample experiment config limit = .ok trial ∧
            sample { experiment with p } config limit' = .ok trial' := by
  refine ⟨fun first second hsame hp seed tolerance tolerance' finished finished' hrun hrun' =>
    hsame.coupledRuns hp hrun hrun', ?_⟩
  intro experiment p hp config limit limit'
  refine ⟨?_, ?_⟩
  · intro trial trial' htrial htrial'
    obtain ⟨assignment, found, hassignment, hscan, hcounted, htried⟩ :=
      exists_scan_of_sample htrial
    obtain ⟨assignment', found', hassignment', hscan', hcounted', htried'⟩ :=
      exists_scan_of_sample htrial'
    obtain rfl : assignment = assignment' :=
      Except.ok.inj (hassignment.symm.trans hassignment')
    have hended' := ended_of_scanRuns hscan'
    obtain ⟨hlength, hattempts⟩ := (ended_of_scanRuns hscan).finds.grows hended'.finds
      fun k hk hvalid => by
        obtain ⟨summary, hsummary⟩ := hended'.succeeded k hk
        exact isValidSeed_of_le hp hsummary hvalid
    rw [hcounted, hcounted', htried, htried']
    omega
  · intro assignment hassignment hall hall'
    obtain ⟨trial, htrial⟩ := exists_sample_of_allSucceed limit hassignment hall
    have hassignment' : assignmentOf { experiment with p } = .ok assignment := hassignment
    obtain ⟨trial', htrial'⟩ := exists_sample_of_allSucceed limit' hassignment' hall'
    exact ⟨trial, trial', htrial, htrial'⟩

/-- The channel of the demanding pair at a greater probability, under a protocol
that takes the least value from other initial values. -/
def eagerPair : Experiment Float :=
  { demandingPair with
    name := "eager pair"
    p := Scalar.ofDraw (3 * 2 ^ 51)
    phases := [{ kind := .eachRound, rule := .assign (.plain "x") (.aggregate .min true) }]
    initial := .values [Scalar.ofNat 4, Scalar.ofNat 9] }

/-- A run of the demanding pair beside one of the eager pair, and two trials of
the demanding pair. -/
theorem demandingPair_grows_with_probability :
    (∃ finished finished', run demandingPair 1 Scalar.zero = .ok finished ∧
      run eagerPair 1 Scalar.zero = .ok finished' ∧
      CoupledRuns demandingPair eagerPair 1 Scalar.zero Scalar.zero finished finished') ∧
    ∃ trial trial', sample demandingPair twoOfSix 0 = .ok trial ∧
      sample { demandingPair with p := eagerPair.p } twoOfSix 0 = .ok trial' ∧
      trial.result.repetitions ≤ trial'.result.repetitions ∧
      trial'.result.attempts ≤ trial.result.attempts := by
  have hp : Scalar.le demandingPair.p eagerPair.p = true := by decide +kernel
  obtain ⟨hruns, htrials⟩ := delivery_grows_with_probability_alone (R := Float)
  have hplays : (run demandingPair 1 Scalar.zero).isOk = true := by decide +kernel
  have hplays' : (run eagerPair 1 Scalar.zero).isOk = true := by decide +kernel
  obtain ⟨finished, hrun⟩ := exists_eq_ok hplays
  obtain ⟨finished', hrun'⟩ := exists_eq_ok hplays'
  have hassigns : (assignmentOf demandingPair).isOk = true := by decide +kernel
  obtain ⟨assignment, hassignment⟩ := exists_eq_ok hassigns
  have hbudget := attemptBudget_twoOfSix_le assignment
  have hall' : ∀ k < 6, (attempt { demandingPair with p := eagerPair.p } twoOfSix.tolerance
      (twoOfSix.seed + ((k : Nat) : Int))).isOk = true := by decide +kernel
  obtain ⟨hgrows, hexists⟩ := htrials demandingPair eagerPair.p hp twoOfSix 0 0
  obtain ⟨trial, trial', htrial, htrial'⟩ := hexists assignment hassignment
    (fun k hk => exists_eq_ok
      (isOk_attempt_demandingPair k (Nat.lt_of_lt_of_le hk hbudget)))
    (fun k hk => exists_eq_ok (hall' k (Nat.lt_of_lt_of_le hk hbudget)))
  exact ⟨⟨finished, finished', hrun, hrun', hruns demandingPair eagerPair ⟨rfl, rfl, rfl, rfl, rfl,
    rfl⟩ hp 1 Scalar.zero Scalar.zero finished finished' hrun hrun'⟩,
    trial, trial', htrial, htrial', hgrows trial trial' htrial htrial'⟩

end LossyConsensus.Sampling
