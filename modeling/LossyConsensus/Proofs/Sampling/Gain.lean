/-
# More delivery never hurts the statistics of a flood

If no process demands messages, a trial counts the run of each seed that it is asked
for.  Trials of a flooding experiment at two probabilities therefore compare the same
seeds, and run by run the discrepancy at the greater probability is no greater.  So no
fewer of its runs end in consensus, and its mean is no greater.
-/

import LossyConsensus.Proofs.Network.Fault
import LossyConsensus.Proofs.Sampling.Growth
import LossyConsensus.Proofs.Simulation.Gain
import LossyConsensus.Proofs.Statistics.Pairwise

namespace LossyConsensus.Sampling

open LossyConsensus.Network LossyConsensus.Protocol LossyConsensus.Simulation
open LossyConsensus.Statistics

/-! ## Trials without demands -/

section

variable {R : Type} [Scalar R] {experiment : Experiment R} {config : Config R} {limit : Int}
  {assignment : Assignment}

omit [Scalar R] in
/-- The budget of a trial without demands are the runs wanted. -/
theorem attemptBudget_of_not_demands (hnone : assignment.demands = false) (config : Config R) :
    (attemptBudget config assignment).toNat = config.repetitions.toNat := by
  rw [attemptBudget, hnone]
  rfl

/-- A scan without demands tries each seed that it is asked for, and finds all of
them. -/
theorem valid_of_scanRuns {found : Scan (Summary R)} (hnone : assignment.demands = false)
    (h : scanRuns experiment config assignment = .ok found) :
    found.valid.map (·.1) = seedsFrom config.seed config.repetitions.toNat ∧
      AllSucceed (attempt experiment config.tolerance) config.seed config.repetitions.toNat := by
  have hended := ended_of_scanRuns h
  rw [attemptBudget_of_not_demands hnone] at hended
  obtain ⟨hfinds, hsucceeded⟩ := hended
  have htried : found.attempts = config.repetitions.toNat := by
    have hwithin := hfinds.withinBudget
    by_cases henough : config.repetitions.toNat ≤ (validSeeds (attempt experiment config.tolerance)
        (meetsDemands assignment) config.seed config.repetitions.toNat).length
    · have hcount := (hfinds.enough henough).1
      have hfew := List.length_filter_le
        (isValidSeed (attempt experiment config.tolerance) (meetsDemands assignment))
        (seedsFrom config.seed found.attempts)
      rw [← validSeeds, hcount, length_seedsFrom] at hfew
      omega
    · exact hfinds.spent (by omega)
  rw [htried] at hsucceeded
  refine ⟨?_, hsucceeded⟩
  rw [hfinds.tried, htried]
  exact validSeeds_eq_seedsFrom (fun k hk _ => hsucceeded k hk)
    (fun summary => Assignment.isMet_of_demands_eq_false hnone _ _) (Nat.le_refl _) (Nat.le_refl _)

/-- A trial without demands has a result if the run of each seed has one. -/
theorem exists_sample_iff (hassignment : assignmentOf experiment = .ok assignment)
    (hnone : assignment.demands = false) :
    (∃ trial, sample experiment config limit = .ok trial) ↔
      AllSucceed (attempt experiment config.tolerance) config.seed config.repetitions.toNat := by
  constructor
  · rintro ⟨trial, htrial⟩
    obtain ⟨other, found, hother, hscan, _⟩ := sample_parts htrial
    obtain rfl := Except.ok.inj (hassignment.symm.trans hother)
    exact (valid_of_scanRuns hnone hscan).2
  · intro hall
    rw [← attemptBudget_of_not_demands hnone] at hall
    exact exists_sample_of_allSucceed limit hassignment hall

theorem exists_attempt_iff {tolerance : R} {seed : Int} :
    (∃ summary, attempt experiment tolerance seed = .ok summary) ↔
      ∃ finished, run experiment seed tolerance = .ok finished := by
  constructor
  · rintro ⟨summary, h⟩
    obtain ⟨finished, hrun, _⟩ := map_eq_ok.mp h
    exact ⟨finished, hrun⟩
  · rintro ⟨finished, hrun⟩
    exact ⟨_, map_eq_ok.mpr ⟨finished, hrun, rfl⟩⟩

/-- The result of a trial without demands is that of the runs of its seeds. -/
theorem exists_summaries_of_sample (hassignment : assignmentOf experiment = .ok assignment)
    (hnone : assignment.demands = false) {trial : Trial R}
    (h : sample experiment config limit = .ok trial) :
    ∃ summaries attempts, (seedsFrom config.seed config.repetitions.toNat).mapM
        (attempt experiment config.tolerance) = .ok summaries ∧
      aggregate experiment.p config.tolerance (summaries.map Observation.ofSummary) attempts
        config.repetitions experiment.traceLength = .ok trial.result := by
  obtain ⟨other, found, hother, hscan, hresult, _⟩ := sample_parts h
  obtain rfl := Except.ok.inj (hassignment.symm.trans hother)
  refine ⟨found.valid.map (·.2), found.attempts, ?_, ?_⟩
  · rw [← (valid_of_scanRuns hnone hscan).1, mapM_eq_ok, List.forall₂_map_left_iff,
      List.forall₂_map_right_iff, List.forall₂_same]
    exact (ended_of_scanRuns hscan).finds.outcomes
  · rw [List.map_map]
    exact hresult

end

/-! ## Exact statistics -/

/-- The mean and the consensus probability of some runs, of none as well. -/
theorem statistics_exact {p tolerance : ℚ} {runs : List (Observation ℚ)}
    {attempts requested : Int} {traceLength : Nat} {result : Result ℚ}
    (h : aggregate p tolerance runs attempts requested traceLength = .ok result) :
    result.meanDiscrepancy = (runs.map (·.final)).sum / (runs.map (·.final)).length ∧
      result.consensusProbability =
        consensusCount tolerance (runs.map (·.final)) / (runs.map (·.final)).length := by
  rw [aggregate] at h
  split at h
  · next hnone =>
    obtain rfl := List.isEmpty_iff.mp hnone
    cases h
    simp
  · dsimp only at h
    split at h
    · cases h
    · cases h
      exact ⟨pairwiseMean_exact _, rfl⟩

/-- Smaller numbers are no less often within a tolerance. -/
theorem consensusCount_le {tolerance : ℚ} {finals finals' : List ℚ}
    (h : List.Forall₂ (· ≥ ·) finals finals') :
    consensusCount tolerance finals ≤ consensusCount tolerance finals' := by
  rw [consensusCount, consensusCount, ← List.countP_eq_length_filter,
    ← List.countP_eq_length_filter]
  induction h with
  | nil => exact Nat.le_refl _
  | cons hle _ ih =>
      rw [List.countP_cons, List.countP_cons]
      refine Nat.add_le_add ih ?_
      split
      · next hwithin =>
        rw [if_pos (Scalar.le_exact.mpr (hle.trans (Scalar.le_exact.mp hwithin)))]
      · exact Nat.zero_le _

variable {extreme : Extreme} {experiment : Experiment ℚ} {p : ℚ}

/-- Run by run, a flood at a greater probability ends with no greater discrepancy. -/
theorem final_le_of_attempt (hspreads : experiment.Spreads extreme) (hp : experiment.p ≤ p)
    {seed : Int} {tolerance tolerance' : ℚ} {summary summary' : Summary ℚ}
    (h : attempt experiment tolerance seed = .ok summary)
    (h' : attempt { experiment with p } tolerance' seed = .ok summary') :
    summary'.finalDiscrepancy ≤ summary.finalDiscrepancy := by
  obtain ⟨finished, hrun, rfl⟩ := map_eq_ok.mp h
  obtain ⟨finished', hrun', rfl⟩ := map_eq_ok.mp h'
  have hall : List.Forall₂ (· ≥ ·) (finished.summary tolerance).discrepancies
      (finished'.summary tolerance').discrepancies := hspreads.discrepancies_le hp hrun hrun'
  have hlast := rel_getLast? hall
  rw [getLast?_discrepancies, getLast?_discrepancies] at hlast
  cases hlast with
  | some hle => exact hle

/-- The statistics of a flood at a greater probability, over the same seeds. -/
theorem statistics_le (hspreads : experiment.Spreads extreme) (hp : experiment.p ≤ p)
    {tolerance : ℚ} {seeds : List Int} {summaries summaries' : List (Summary ℚ)}
    (hruns : seeds.mapM (attempt experiment tolerance) = .ok summaries)
    (hruns' : seeds.mapM (attempt { experiment with p } tolerance) = .ok summaries')
    {attempts attempts' requested requested' : Int} {traceLength traceLength' : Nat}
    {result result' : Result ℚ}
    (h : aggregate experiment.p tolerance (summaries.map Observation.ofSummary) attempts requested
      traceLength = .ok result)
    (h' : aggregate p tolerance (summaries'.map Observation.ofSummary) attempts' requested'
      traceLength' = .ok result') :
    result.consensusProbability ≤ result'.consensusProbability ∧
      result'.meanDiscrepancy ≤ result.meanDiscrepancy := by
  have hsame : List.Forall₂ (· = ·) seeds seeds := List.forall₂_same.mpr fun _ _ => rfl
  have hfinals : List.Forall₂ (· ≥ ·) ((summaries.map Observation.ofSummary).map (·.final))
      ((summaries'.map Observation.ofSummary).map (·.final)) := by
    rw [List.map_map, List.map_map, List.forall₂_map_left_iff, List.forall₂_map_right_iff]
    refine forall₂_of_mapM hsame hruns hruns' ?_
    rintro seed _ summary summary' rfl hsummary hsummary'
    exact final_le_of_attempt hspreads hp hsummary hsummary'
  obtain ⟨hmean, hconsensus⟩ := statistics_exact h
  obtain ⟨hmean', hconsensus'⟩ := statistics_exact h'
  have hlength := hfinals.length_eq
  have hcount : (0 : ℚ) ≤ ((summaries.map Observation.ofSummary).map (·.final)).length :=
    Nat.cast_nonneg _
  rw [hmean, hconsensus, hmean', hconsensus', ← hlength]
  exact ⟨div_le_div_of_nonneg_right (Nat.cast_le.mpr (consensusCount_le hfinals)) hcount,
    div_le_div_of_nonneg_right hfinals.flip.sum_le_sum hcount⟩

/-- More delivery never hurts a flood of the least or the greatest value.

Take an experiment whose only phase takes in each round the extreme of all values that
a process knows, where the channel guarantees nothing and the faults only take messages
away, over any topology and with any delivery models, and a probability that is no
smaller.  Runs from one seed end at both probabilities or at neither, and if they end,
no discrepancy of the run at the greater probability exceeds the one at the same place
of the other run.

So if no process has a guaranteed model, two trials that want equally many runs from one
seed on, with one tolerance, have a result both or neither; and at the greater
probability the consensus probability is no smaller and the mean discrepancy no
greater. -/
theorem more_delivery_never_hurts_floods (hspreads : experiment.Spreads extreme)
    (hp : experiment.p ≤ p) :
    (∀ (seed : Int) (tolerance tolerance' : ℚ),
      ((∃ finished, run experiment seed tolerance = .ok finished) ↔
        ∃ finished', run { experiment with p } seed tolerance' = .ok finished') ∧
      ∀ finished finished', run experiment seed tolerance = .ok finished →
        run { experiment with p } seed tolerance' = .ok finished' →
        (finished.summary tolerance).discrepancies.length = experiment.rounds + 1 ∧
        List.Forall₂ (· ≥ ·) (finished.summary tolerance).discrepancies
          (finished'.summary tolerance').discrepancies) ∧
    ∀ assignment, assignmentOf experiment = .ok assignment → assignment.demands = false →
      ∀ (config config' : Config ℚ) (limit limit' : Int),
        config'.repetitions = config.repetitions → config'.seed = config.seed →
        config'.tolerance = config.tolerance →
        ((∃ trial, sample experiment config limit = .ok trial) ↔
          ∃ trial', sample { experiment with p } config' limit' = .ok trial') ∧
        ∀ trial trial', sample experiment config limit = .ok trial →
          sample { experiment with p } config' limit' = .ok trial' →
          trial.result.consensusProbability ≤ trial'.result.consensusProbability ∧
            trial'.result.meanDiscrepancy ≤ trial.result.meanDiscrepancy := by
  have htakes := hspreads.takes
  have htakes' := (hspreads.withProbability p).takes
  have hends : ∀ (seed : Int) (tolerance tolerance' : ℚ),
      (∃ finished, run experiment seed tolerance = .ok finished) ↔
        ∃ finished', run { experiment with p } seed tolerance' = .ok finished' :=
    fun seed tolerance tolerance' => ⟨fun h => htakes.exists_run p h tolerance',
      fun h => htakes'.exists_run experiment.p h tolerance⟩
  refine ⟨?_, ?_⟩
  · intro seed tolerance tolerance'
    refine ⟨hends seed tolerance tolerance', fun finished finished' hrun hrun' => ⟨?_, ?_⟩⟩
    · rw [discrepancies_eq_states htakes.hasEnd_eq hrun, List.length_map,
        (length_states_of_run hrun).2]
    · exact hspreads.discrepancies_le hp hrun hrun'
  · intro assignment hassignment hnone config config' limit limit' hrepetitions hseed htolerance
    have hassignment' : assignmentOf { experiment with p } = .ok assignment := hassignment
    refine ⟨?_, ?_⟩
    · rw [exists_sample_iff hassignment hnone, exists_sample_iff hassignment' hnone, hseed,
        hrepetitions, htolerance]
      refine forall₂_congr fun k _ => ?_
      rw [exists_attempt_iff, exists_attempt_iff]
      exact hends _ _ _
    · intro trial trial' htrial htrial'
      obtain ⟨summaries, attempts, hruns, hresult⟩ :=
        exists_summaries_of_sample hassignment hnone htrial
      obtain ⟨summaries', attempts', hruns', hresult'⟩ :=
        exists_summaries_of_sample hassignment' hnone htrial'
      rw [hseed, hrepetitions, htolerance] at hruns'
      rw [htolerance] at hresult'
      exact statistics_le hspreads hp hruns hruns' hresult hresult'

/-- Four processes on a ring that take the greatest value they know, while the first one
is silent and the last two are cut off in the second round. -/
def climbers : Experiment ℚ where
  name := "climbers"
  processes := 4
  rounds := 3
  p := 1 / 4
  phases := [{ kind := .eachRound, rule := .assign (.plain "x") (.aggregate .max true) }]
  leader := none
  parameters := []
  initial := .rule (.parameter "i")
  models := [{ kind := .standard }, { kind := .broadcast, process := some 3 }]
  channel := .guarantee .none
  topology := some .ring
  faults := some (.composite [.byzantine [1] .silent, .partition 2 1 [[1, 2], [3, 4]]])

/-- The climbers at two probabilities: their runs from one seed, and trials of two runs. -/
theorem climbers_gain_from_delivery :
    (∃ finished finished', run climbers 2 0 = .ok finished ∧
      run { climbers with p := 3 / 4 } 2 0 = .ok finished' ∧
      List.Forall₂ (· ≥ ·) (finished.summary 0).discrepancies
        (finished'.summary 0).discrepancies) ∧
    ∃ trial trial', sample climbers ⟨2, 2, 1, 1, 100⟩ 0 = .ok trial ∧
      sample { climbers with p := 3 / 4 } ⟨2, 2, 1, 3, 100⟩ 0 = .ok trial' ∧
      trial.result.consensusProbability ≤ trial'.result.consensusProbability ∧
      trial'.result.meanDiscrepancy ≤ trial.result.meanDiscrepancy := by
  have hspreads : climbers.Spreads .greatest := by
    refine ⟨⟨_, _, rfl⟩, rfl, ?_⟩
    rintro fault ⟨⟩ message changed round _ h
    have hdrops : (Fault.composite [.byzantine [1] .silent,
        .partition 2 1 [[1, 2], [3, 4]]] : Fault ℚ).DropsOnly := by
      refine .composite fun model hmodel => ?_
      simp only [List.mem_cons, List.not_mem_nil, or_false] at hmodel
      rcases hmodel with rfl | rfl
      · exact .silent [1]
      · exact .partition 2 1 [[1, 2], [3, 4]]
    exact hdrops.transform_eq h
  have hassigns : (assignmentOf climbers).map (·.demands) = .ok false := by decide +kernel
  obtain ⟨assignment, hassignment, hnone⟩ := map_eq_ok.mp hassigns
  have hplays : (run climbers 2 0).isOk = true := by decide +kernel
  obtain ⟨finished, hrun⟩ := exists_eq_ok hplays
  have hsamples : (sample climbers ⟨2, 2, 1, 1, 100⟩ 0).isOk = true := by decide +kernel
  obtain ⟨trial, htrial⟩ := exists_eq_ok hsamples
  obtain ⟨hruns, htrials⟩ := more_delivery_never_hurts_floods hspreads
    (show climbers.p ≤ 3 / 4 by decide +kernel)
  obtain ⟨hends, hcompares⟩ := hruns 2 0 0
  obtain ⟨finished', hrun'⟩ := hends.mp ⟨finished, hrun⟩
  obtain ⟨hsampled, hgains⟩ := htrials assignment hassignment hnone ⟨2, 2, 1, 1, 100⟩
    ⟨2, 2, 1, 3, 100⟩ 0 0 rfl rfl rfl
  obtain ⟨trial', htrial'⟩ := hsampled.mp ⟨trial, htrial⟩
  exact ⟨⟨finished, finished', hrun, hrun', (hcompares finished finished' hrun hrun').2⟩,
    trial, trial', htrial, htrial', hgains trial trial' htrial htrial'⟩

end LossyConsensus.Sampling
