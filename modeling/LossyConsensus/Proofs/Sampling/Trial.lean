/-
# Which runs are counted

A trial counts the runs of the first valid seeds, and all its numbers are taken
over these runs and no others.  Whether a run is valid is told from the delivery
models of the processes, and the consensus of a run is judged alike in the run
and in the statistics.
-/

import LossyConsensus.Proofs.Network.Demand
import LossyConsensus.Proofs.Sampling.Scan
import LossyConsensus.Proofs.Simulation.Run
import LossyConsensus.Sampling.Trial

namespace LossyConsensus.Sampling

open LossyConsensus.Network LossyConsensus.Simulation

variable {R : Type} [Scalar R]

/-! ## Runs -/

/-- Whether a run is what the delivery model of each process asks for. -/
def meetsDemands (assignment : Assignment) (summary : Summary R) : Bool :=
  assignment.isMet (summary.deliveredPerRound.map Int.ofNat) summary.totalDelivered

/-- How many runs may be tried: the multiple of the runs wanted if some process
has a guaranteed model, and as many as are wanted otherwise. -/
def attemptBudget (config : Config R) (assignment : Assignment) : Int :=
  if assignment.demands then config.multiplier * config.repetitions else config.repetitions

omit [Scalar R] in
theorem isValid_eq_meetsDemands (assignment : Assignment) :
    (isValid assignment : Summary R → Bool) = meetsDemands assignment := by
  funext summary
  exact Assignment.isSatisfied_eq_isMet _ _

omit [Scalar R] in
theorem maxAttempts_eq_toNat (config : Config R) (assignment : Assignment) :
    maxAttempts config assignment = (attemptBudget config assignment).toNat := by
  rw [maxAttempts, Assignment.isEmpty_guaranteed, Config.budget, attemptBudget]
  split
  · rfl
  · rfl

/-- The parts of a configuration that has been checked are in range. -/
theorem bounds_of_check {config : Config R} (h : config.check = .ok config) :
    1 ≤ config.repetitions ∧ 1 ≤ config.multiplier := by
  rw [Config.check] at h
  split at h
  · cases h
  · next hrepetitions =>
    split at h
    · cases h
    · split at h
      · cases h
      · split at h
        · cases h
        · next hmultiplier => exact ⟨by omega, by omega⟩

theorem attemptBudget_nonneg {config : Config R} (h : config.check = .ok config)
    (assignment : Assignment) : 0 ≤ attemptBudget config assignment := by
  obtain ⟨hrepetitions, hmultiplier⟩ := bounds_of_check h
  rw [attemptBudget]
  split
  · exact Int.mul_nonneg (by omega) (by omega)
  · omega

/-! ## Statistics -/

theorem eraseDups_eq_singleton {α : Type} [BEq α] [LawfulBEq α] {items : List α} {item : α}
    (hne : items ≠ []) (h : ∀ other ∈ items, other = item) : items.eraseDups = [item] := by
  cases items with
  | nil => exact absurd rfl hne
  | cons first rest =>
      obtain rfl := h first List.mem_cons_self
      have hnone : rest.filter (fun other => !other == first) = [] := by
        rw [List.filter_eq_nil_iff]
        intro other hother
        rw [h other (List.mem_cons_of_mem _ hother), beq_self_eq_true]
        exact Bool.false_ne_true
      rw [List.eraseDups_cons, hnone]
      rfl

/-- The statistics of runs whose traces are equally long. -/
theorem exists_aggregate (p tolerance : R) {runs : List (Observation R)} (attempts requested : Int)
    {traceLength : Nat} (h : ∀ run ∈ runs, run.trace.length = traceLength) :
    ∃ result, aggregate p tolerance runs attempts requested traceLength = .ok result ∧
      result.repetitions = runs.length ∧ result.attempts = attempts ∧
      result.requested = requested ∧ result.samples = runs.map (·.final) ∧
      result.consensusProbability =
        if runs = [] then Scalar.zero
        else Scalar.ofNat (consensusCount tolerance (runs.map (·.final))) /
          Scalar.ofNat runs.length := by
  rw [aggregate]
  by_cases hempty : runs = []
  · subst hempty
    exact ⟨_, rfl, rfl, rfl, rfl, rfl, rfl⟩
  · have hlengths : (runs.map (·.trace.length)).eraseDups = [traceLength] := by
      refine eraseDups_eq_singleton (by simpa using hempty) ?_
      intro length hlength
      obtain ⟨run, hrun, rfl⟩ := List.mem_map.mp hlength
      exact h run hrun
    rw [if_neg (by simpa using hempty), if_neg (by simp [hlengths])]
    refine ⟨_, rfl, rfl, rfl, rfl, rfl, ?_⟩
    rw [if_neg hempty, List.length_map]

/-- A run and the statistics judge its consensus alike. -/
theorem consensusCount_eq {tolerance : R} {outcomes : List (Int × Summary R)}
    (h : ∀ pair ∈ outcomes,
      pair.2.finalConsensus = Scalar.le pair.2.finalDiscrepancy tolerance) :
    consensusCount tolerance (outcomes.map fun pair => pair.2.finalDiscrepancy) =
      (outcomes.filter fun pair => pair.2.finalConsensus).length := by
  rw [consensusCount, List.filter_map, List.length_map]
  congr 1
  refine List.filter_congr ?_
  intro pair hpair
  exact (h pair hpair).symm

/-! ## Trials -/

/-- What a trial counts, given its scan.  The runs counted are those of the first
valid seeds within the budget, as many as are wanted; the scan stops at the last
of them, or else spends its budget.  The numbers of the result are those of the
runs counted, in the order of their seeds. -/
structure Counts (experiment : Experiment R) (config : Config R) (assignment : Assignment)
    (scan : Scan (Summary R)) (trial : Trial R) : Prop where
  seeds : scan.valid.map (·.1) =
    (validSeeds (attempt experiment config.tolerance) (meetsDemands assignment) config.seed
      (attemptBudget config assignment).toNat).take config.repetitions.toNat
  runs : ∀ pair ∈ scan.valid, ∃ finished,
    run experiment pair.1 config.tolerance = .ok finished ∧
      pair.2 = finished.summary config.tolerance
  enough : config.repetitions ≤ ((validSeeds (attempt experiment config.tolerance)
      (meetsDemands assignment) config.seed (attemptBudget config assignment).toNat).length : Int) →
    IsEnough (attempt experiment config.tolerance) (meetsDemands assignment)
      config.repetitions.toNat config.seed scan.attempts
  spent : ((validSeeds (attempt experiment config.tolerance)
      (meetsDemands assignment) config.seed (attemptBudget config assignment).toNat).length : Int) <
      config.repetitions →
    (scan.attempts : Int) = attemptBudget config assignment
  repetitions : trial.result.repetitions = scan.valid.length
  requested : trial.result.requested = config.repetitions
  attempts : trial.result.attempts = scan.attempts
  rejected : trial.result.rejected =
    ((seedsFrom config.seed scan.attempts).filter fun seed =>
      !isValidSeed (attempt experiment config.tolerance) (meetsDemands assignment) seed).length
  samples : trial.result.samples = scan.valid.map fun pair => pair.2.finalDiscrepancy
  consensus : trial.result.consensusProbability =
    if scan.valid = [] then Scalar.zero
    else Scalar.ofNat (scan.valid.filter fun pair => pair.2.finalConsensus).length /
      Scalar.ofNat scan.valid.length
  warning : trial.shortfall.isSome = true ↔ trial.result.repetitions < config.repetitions

/-- The traces of runs of one experiment are equally long. -/
theorem length_trace_of_runs {experiment : Experiment R} {tolerance : R}
    {valid : List (Int × Summary R)}
    (hruns : ∀ pair ∈ valid, ∃ finished,
      run experiment pair.1 tolerance = .ok finished ∧ pair.2 = finished.summary tolerance) :
    ∀ observation ∈ valid.map fun pair => Observation.ofSummary pair.2,
      observation.trace.length = experiment.traceLength := by
  intro observation hobservation
  obtain ⟨pair, hpair, rfl⟩ := List.mem_map.mp hobservation
  obtain ⟨finished, hrun, hsummary⟩ := hruns pair hpair
  rw [Observation.ofSummary, hsummary]
  exact length_discrepancies_of_run hrun

/-- A trial has a result as soon as its scan has one: the runs counted can be
replayed, and their traces are equally long. -/
theorem exists_sample {experiment : Experiment R} {config : Config R} (limit : Int)
    {assignment : Assignment} (hassignment : assignmentOf experiment = .ok assignment)
    {scan : Scan (Summary R)} (hscan : scanRuns experiment config assignment = .ok scan)
    (hruns : ∀ pair ∈ scan.valid, ∃ finished,
      run experiment pair.1 config.tolerance = .ok finished ∧
        pair.2 = finished.summary config.tolerance) :
    ∃ trial, sample experiment config limit = .ok trial ∧
      trial.result.repetitions = scan.valid.length ∧ trial.result.attempts = scan.attempts ∧
      trial.result.requested = config.repetitions ∧
      trial.result.samples = scan.valid.map (fun pair => pair.2.finalDiscrepancy) ∧
      trial.result.consensusProbability =
        (if scan.valid = [] then Scalar.zero
        else Scalar.ofNat (scan.valid.filter fun pair => pair.2.finalConsensus).length /
          Scalar.ofNat scan.valid.length) ∧
      (trial.shortfall.isSome = true ↔ scan.valid.length < config.repetitions.toNat) := by
  have hreplay : ∃ traced, replay experiment config
      (takeBefore limit (scan.valid.map (·.1))) = .ok traced := by
    refine exists_mapM_eq_ok ?_
    intro seed hseed
    have hmem : seed ∈ scan.valid.map (·.1) := by
      rw [takeBefore] at hseed
      split at hseed
      · exact List.mem_of_mem_take hseed
      · exact List.mem_of_mem_take hseed
    obtain ⟨pair, hpair, rfl⟩ := List.mem_map.mp hmem
    obtain ⟨finished, hrun, _⟩ := hruns pair hpair
    exact ⟨_, bind_eq_ok.mpr ⟨finished, hrun, rfl⟩⟩
  have htraces := length_trace_of_runs hruns
  have hjudged : ∀ pair ∈ scan.valid,
      pair.2.finalConsensus = Scalar.le pair.2.finalDiscrepancy config.tolerance := by
    intro pair hpair
    obtain ⟨finished, _, hsummary⟩ := hruns pair hpair
    rw [hsummary]
    rfl
  obtain ⟨traced, htraced⟩ := hreplay
  obtain ⟨result, hresult, hrepetitions, hattempts, hrequested, hsamples, hconsensus⟩ :=
    exists_aggregate experiment.p config.tolerance scan.attempts config.repetitions htraces
  let shortfall : Option (Shortfall R) :=
    if scan.valid.length < config.repetitions.toNat then
      some ⟨experiment.name, experiment.p, scan.valid.length, config.repetitions, scan.attempts⟩
    else none
  refine ⟨⟨result, shortfall, traced⟩, ?_, ?_, hattempts, hrequested, ?_, ?_, ?_⟩
  · refine bind_eq_ok.mpr ⟨assignment, mapError_eq_ok.mpr hassignment, ?_⟩
    refine bind_eq_ok.mpr ⟨scan, mapError_eq_ok.mpr hscan, ?_⟩
    refine bind_eq_ok.mpr ⟨traced, mapError_eq_ok.mpr htraced, ?_⟩
    exact bind_eq_ok.mpr ⟨result, mapError_eq_ok.mpr hresult, rfl⟩
  · rw [hrepetitions, List.length_map]
  · rw [hsamples, List.map_map]
    rfl
  · rw [hconsensus, List.map_map]
    by_cases hempty : scan.valid = []
    · rw [if_pos (List.map_eq_nil_iff.mpr hempty), if_pos hempty]
    · rw [if_neg (fun h => hempty (List.map_eq_nil_iff.mp h)), if_neg hempty, List.length_map,
        ← consensusCount_eq hjudged]
      rfl
  · by_cases hfew : scan.valid.length < config.repetitions.toNat
    · simp [shortfall, hfew]
    · simp [shortfall, hfew]

/-- A trial whose runs all succeed counts the runs of the first valid seeds.  As
long as no run that it reaches fails, it has a result; and where no process has a
guaranteed model, it counts every run it tries, as many as are wanted. -/
theorem sample_counts_first_valid_seeds (experiment : Experiment R) (config : Config R)
    (limit : Int) {assignment : Assignment} (hconfig : config.check = .ok config)
    (hworkers : config.workers = 1) (hassignment : assignmentOf experiment = .ok assignment)
    (hruns : ReachedSucceed (attempt experiment config.tolerance) (meetsDemands assignment)
      config.repetitions.toNat (attemptBudget config assignment).toNat config.seed) :
    ∃ scan trial, scanRuns experiment config assignment = .ok scan ∧
      sample experiment config limit = .ok trial ∧
      Counts experiment config assignment scan trial ∧
      (assignment.demands = false →
        trial.result.repetitions = config.repetitions ∧
          trial.result.attempts = config.repetitions) := by
  obtain ⟨hwanted, _⟩ := bounds_of_check hconfig
  have hnonneg := attemptBudget_nonneg hconfig assignment
  obtain ⟨found, hscan, hfinds⟩ := exists_finds_of_scan hruns
  have hscanRuns : scanRuns experiment config assignment = .ok found := by
    rw [scanRuns, if_neg (by omega), maxAttempts_eq_toNat, isValid_eq_meetsDemands]
    exact hscan
  have hfinished : ∀ pair ∈ found.valid, ∃ finished,
      run experiment pair.1 config.tolerance = .ok finished ∧
        pair.2 = finished.summary config.tolerance := by
    intro pair hpair
    obtain ⟨finished, hrun, hsummary⟩ := map_eq_ok.mp (hfinds.outcomes pair hpair)
    exact ⟨finished, hrun, hsummary.symm⟩
  obtain ⟨trial, htrial, hrepetitions, hattempts, hrequested, hsamples, hconsensus, hwarning⟩ :=
    exists_sample limit hassignment hscanRuns hfinished
  refine ⟨found, trial, hscanRuns, htrial, ?_, ?_⟩
  · refine ⟨hfinds.seeds, hfinished, ?_, ?_, hrepetitions, hrequested, hattempts, ?_, hsamples,
      hconsensus, ?_⟩
    · intro henough
      exact hfinds.enough (by omega)
    · intro hfew
      rw [hfinds.spent (by omega)]
      omega
    · have hsplit := hfinds.attempts_eq
      rw [Result.rejected, hattempts, hrepetitions]
      omega
    · rw [hwarning, hrepetitions]
      omega
  · intro hnone
    have hbudget : (attemptBudget config assignment).toNat = config.repetitions.toNat := by
      rw [attemptBudget, hnone]
      rfl
    rw [hbudget] at hruns hfinds
    obtain ⟨hfound, htried⟩ := hfinds.all_of_valid hruns
      fun summary => Assignment.isMet_of_demands_eq_false hnone _ _
    rw [hrepetitions, hattempts]
    omega

/-- Two processes of which the second one demands a message in every round. -/
def demandingPair : Experiment Float where
  name := "demanding pair"
  processes := 2
  rounds := 1
  p := Scalar.ofDraw (2 ^ 52)
  phases := [{ kind := .eachRound, rule := .combine .average }]
  leader := none
  parameters := []
  initial := .rule (.parameter "i")
  models := [{ kind := .guaranteed, process := some 2 }]
  channel := .guarantee .none
  topology := none
  faults := none

/-- Two runs of the demanding pair, from seed 1 on, for which at most six may be
tried. -/
def twoOfSix : Config Float where
  repetitions := 2
  seed := 1
  tolerance := Scalar.zero
  multiplier := 3

theorem attemptBudget_twoOfSix_le (assignment : Assignment) :
    (attemptBudget twoOfSix assignment).toNat ≤ 6 := by
  rw [attemptBudget]
  split
  · decide
  · decide

theorem isOk_attempt_demandingPair : ∀ k < 6, (attempt demandingPair twoOfSix.tolerance
    (twoOfSix.seed + ((k : Nat) : Int))).isOk = true := by
  decide +kernel

/-- Of the demanding pair the first two valid runs are counted. -/
theorem demandingPair_counts_first_valid_seeds :
    ∃ assignment scan trial, assignmentOf demandingPair = .ok assignment ∧
      scanRuns demandingPair twoOfSix assignment = .ok scan ∧
      sample demandingPair twoOfSix 0 = .ok trial ∧
      Counts demandingPair twoOfSix assignment scan trial := by
  have hassigns : (assignmentOf demandingPair).isOk = true := by decide +kernel
  obtain ⟨assignment, hassignment⟩ := exists_eq_ok hassigns
  have hbudget := attemptBudget_twoOfSix_le assignment
  obtain ⟨scan, trial, hscan, htrial, hcounts, _⟩ :=
    sample_counts_first_valid_seeds demandingPair twoOfSix 0 (by decide +kernel) rfl hassignment
      fun k hk _ => exists_eq_ok
        (isOk_attempt_demandingPair k (Nat.lt_of_lt_of_le hk hbudget))
  exact ⟨assignment, scan, trial, hassignment, hscan, htrial, hcounts⟩

end LossyConsensus.Sampling
