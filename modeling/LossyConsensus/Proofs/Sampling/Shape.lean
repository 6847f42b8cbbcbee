/-
# The shape of results

How long the trace of a run is can be told from its experiment.  So the traces
that a trial takes its means over are equally long, whichever runs it counts; a
trial that counts none has as many means all the same; and a sweep has one result
for each of its probabilities, in their order.
-/

import LossyConsensus.Proofs.Sampling.Growth
import LossyConsensus.Proofs.Simulation.Summary
import LossyConsensus.Proofs.Statistics.Pairwise
import LossyConsensus.Sampling.Sweep

namespace LossyConsensus.Sampling

open LossyConsensus.Network LossyConsensus.Protocol LossyConsensus.Simulation
open LossyConsensus.Statistics

variable {R : Type} [Scalar R]

/-! ## Trials -/

/-- Statistics of equally long traces have a mean for each of their entries, also
those of no trace at all. -/
theorem length_meanByRound {p tolerance : R} {runs : List (Observation R)}
    {attempts requested : Int} {traceLength : Nat}
    (hruns : ∀ run ∈ runs, run.trace.length = traceLength) {result : Result R}
    (h : aggregate p tolerance runs attempts requested traceLength = .ok result) :
    result.p = p ∧ result.meanByRound.length = traceLength := by
  rw [aggregate] at h
  split at h
  · cases h
    exact ⟨rfl, List.length_replicate⟩
  · next hne =>
    dsimp only at h
    split at h
    · cases h
    · cases h
      refine ⟨rfl, length_columnMeans ?_ ?_⟩
      · simpa using hne
      · intro row hrow
        obtain ⟨run, hrun, rfl⟩ := List.mem_map.mp hrow
        exact hruns run hrun

variable {experiment : Experiment R} {config : Config R} {limit : Int}

theorem length_meanByRound_of_sample {trial : Trial R}
    (h : sample experiment config limit = .ok trial) :
    trial.result.p = experiment.p ∧
      trial.result.meanByRound.length = experiment.traceLength := by
  obtain ⟨assignment, found, _, hscan, hresult, _⟩ := sample_parts h
  have hruns := runs_of_finds (ended_of_scanRuns hscan).finds
  exact length_meanByRound (length_trace_of_runs hruns) hresult

/-- A trial that stops without a result stops for one of its runs, and never
because their traces differ in length. -/
theorem exists_run_of_sample_eq_error {error : TrialError R}
    (h : sample experiment config limit = .error error) : ∃ cause, error = .run cause := by
  rw [sample, bind_eq_error] at h
  rcases h with h | ⟨assignment, _, h⟩
  · obtain ⟨cause, _, rfl⟩ := mapError_eq_error.mp h
    exact ⟨cause, rfl⟩
  · rcases bind_eq_error.mp h with h | ⟨found, hscan, h⟩
    · obtain ⟨cause, _, rfl⟩ := mapError_eq_error.mp h
      exact ⟨cause, rfl⟩
    · rcases bind_eq_error.mp h with h | ⟨traced, _, h⟩
      · obtain ⟨cause, _, rfl⟩ := mapError_eq_error.mp h
        exact ⟨cause, rfl⟩
      · have hruns := runs_of_finds (ended_of_scanRuns (mapError_eq_ok.mp hscan)).finds
        obtain ⟨result, hresult, _⟩ := exists_aggregate experiment.p config.tolerance
          found.attempts config.repetitions (length_trace_of_runs hruns)
        dsimp only at h
        rw [hresult] at h
        cases h

/-! ## Sweeps -/

variable {protocol : LossyConsensus.Protocol R} {settings : SweepSettings R}

/-- A point of a sweep is a trial of the protocol bound to its probability. -/
theorem samplePoint_eq_ok {p : R} {seed : Int} {point : Point R}
    (h : samplePoint protocol settings p seed = .ok point) :
    point.p = p ∧ ∃ experiment, Experiment.ofProtocol protocol p settings.rounds
        settings.topology settings.faults = .ok experiment ∧
      sample experiment { settings.config with seed } settings.limit = .ok point.trial := by
  rw [samplePoint, bind_eq_ok] at h
  obtain ⟨experiment, hbound, h⟩ := h
  obtain ⟨trial, htrial, h⟩ := bind_eq_ok.mp h
  obtain rfl := pure_eq_ok.mp h
  exact ⟨rfl, experiment, mapError_eq_ok.mp hbound, mapError_eq_ok.mp htrial⟩

theorem samplePoint_ne_lengths {p : R} {seed : Int} {mismatch : LengthMismatch} :
    samplePoint protocol settings p seed ≠ .error (.trial (.lengths mismatch)) := by
  intro h
  rw [samplePoint, bind_eq_error] at h
  rcases h with h | ⟨experiment, _, h⟩
  · obtain ⟨_, _, heq⟩ := mapError_eq_error.mp h
    cases heq
  · rcases bind_eq_error.mp h with h | ⟨trial, _, h⟩
    · obtain ⟨error, herror, heq⟩ := mapError_eq_error.mp h
      obtain ⟨cause, rfl⟩ := exists_run_of_sample_eq_error herror
      cases heq
    · exact absurd h pure_ne_error

/-- The points of a sweep are those of its probabilities, in their order, up to the
one at which it stops. -/
theorem points_of_sweepFrom (protocol : LossyConsensus.Protocol R) (settings : SweepSettings R)
    (seed : Int) (ps : List R) :
    (∀ point ∈ (sweepFrom protocol settings seed ps).points,
      ∃ seed, samplePoint protocol settings point.p seed = .ok point) ∧
    (∀ p other error, (sweepFrom protocol settings seed ps).stopped = some (p, other, error) →
      samplePoint protocol settings p other = .error error) ∧
    ((sweepFrom protocol settings seed ps).stopped = none →
      (sweepFrom protocol settings seed ps).points.map (·.p) = ps) := by
  induction ps generalizing seed with
  | nil =>
      refine ⟨fun point hpoint => (List.not_mem_nil hpoint).elim, ?_, fun _ => rfl⟩
      rintro p other error ⟨⟩
  | cons p rest ih =>
      obtain ⟨hpoints, hstopped, hall⟩ := ih (seed + 1)
      rw [sweepFrom]
      cases hpoint : samplePoint protocol settings p seed with
      | error error =>
          refine ⟨fun point hmem => (List.not_mem_nil hmem).elim, ?_, ?_⟩
          · rintro _ _ _ ⟨⟩
            exact hpoint
          · rintro ⟨⟩
      | ok point =>
          obtain ⟨hp, _⟩ := samplePoint_eq_ok hpoint
          refine ⟨List.forall_mem_cons.mpr ⟨⟨seed, hp ▸ hpoint⟩, hpoints⟩, hstopped, ?_⟩
          intro hnone
          rw [List.map_cons, hp, hall hnone]

omit [Scalar R] in
theorem results_eq_ok {done : Sweep R} {results : List (Result R)} :
    done.results = .ok results ↔
      done.stopped = none ∧ (done.points.map fun point => point.trial.result) = results := by
  rw [Sweep.results]
  cases done.stopped with
  | none => simp
  | some failure => simp

/-- A sweep that does not stop has a result for each of its probabilities, in their
order. -/
theorem map_p_of_sweep {ps : List R} {results : List (Result R)}
    (h : (sweep protocol settings ps).results = .ok results) : results.map (·.p) = ps := by
  obtain ⟨hpoints, _, hall⟩ := points_of_sweepFrom protocol settings settings.config.seed ps
  have hresult : ∀ point ∈ (sweep protocol settings ps).points,
      point.trial.result.p = point.p := by
    intro point hpoint
    obtain ⟨seed, hsampled⟩ := hpoints point hpoint
    obtain ⟨_, experiment, hbound, htrial⟩ := samplePoint_eq_ok hsampled
    exact (length_meanByRound_of_sample htrial).1.trans (traceLength_of_ofProtocol hbound).1
  obtain ⟨hnone, rfl⟩ := results_eq_ok.mp h
  rw [List.map_map]
  exact (List.map_congr_left hresult).trans (hall hnone)

/-- Results have the shape that can be told before anything runs.

The summary of a run that ends has a discrepancy for the start, for each round and
for the phase at the end if there is one, and a count of messages for each round,
whose sum is its total; the phase at the end adds none.  It has a final value for
each process, and their discrepancy is the last one of the trace and decides about
consensus.

So a trial never stops because traces differ in length, and its means by round are
as many as the trace of a run is long, however many runs it counts; and a sweep that
does not stop has one such result for each of its probabilities, in their order. -/
theorem results_have_stated_shape :
    (∀ (experiment : Experiment R) (seed : Int) (tolerance : R) (finished : Run R),
      run experiment seed tolerance = .ok finished → finished.IsShaped experiment tolerance) ∧
    (∀ (experiment : Experiment R) (config : Config R) (limit : Int),
      (∀ error, sample experiment config limit = .error error → ∃ cause, error = .run cause) ∧
      ∀ trial, sample experiment config limit = .ok trial →
        trial.result.meanByRound.length = experiment.traceLength) ∧
    ∀ (protocol : LossyConsensus.Protocol R) (settings : SweepSettings R) (ps : List R),
      (∀ p seed error, (sweep protocol settings ps).stopped = some (p, seed, error) →
        ∀ mismatch, error ≠ .trial (.lengths mismatch)) ∧
      ∀ results, (sweep protocol settings ps).results = .ok results →
        results.map (·.p) = ps ∧
        ∀ result ∈ results, result.meanByRound.length =
          settings.rounds.toNat + 1 + if protocol.phases.any Phase.isEnd then 1 else 0 := by
  refine ⟨fun experiment seed tolerance finished h => isShaped_of_run h, ?_, ?_⟩
  · intro experiment config limit
    exact ⟨fun error h => exists_run_of_sample_eq_error h,
      fun trial h => (length_meanByRound_of_sample h).2⟩
  · intro protocol settings ps
    obtain ⟨hpoints, hstopped, _⟩ :=
      points_of_sweepFrom protocol settings settings.config.seed ps
    refine ⟨?_, ?_⟩
    · rintro p seed error h mismatch rfl
      exact samplePoint_ne_lengths (hstopped p seed _ h)
    · intro results h
      refine ⟨map_p_of_sweep h, ?_⟩
      obtain ⟨_, rfl⟩ := results_eq_ok.mp h
      intro result hmem
      -- Each result is that of a point, whose trial is of the protocol bound there.
      obtain ⟨point, hpoint, rfl⟩ := List.mem_map.mp hmem
      obtain ⟨seed, hsampled⟩ := hpoints point hpoint
      obtain ⟨_, experiment, hbound, htrial⟩ := samplePoint_eq_ok hsampled
      exact (length_meanByRound_of_sample htrial).2.trans (traceLength_of_ofProtocol hbound).2

/-- Two processes that demand a message in every round, take the average of what
they know, and end with the greatest value. -/
def closingPair : LossyConsensus.Protocol Float where
  name := "closing pair"
  processes := 2
  initial := .values [Scalar.zero, Scalar.ofNat 1]
  phases := [{ kind := .eachRound, rule := .combine .average },
    { kind := .atEnd, rule := .combine .max }]
  metrics := .both
  settings := [("channel_guarantee", .guarantee .none)]
  models := [{ kind := .guaranteed }]
  stateVar := "x"
  domain := none

/-- One round of the closing pair at each probability, two runs of it wanted. -/
def closingSettings : SweepSettings Float where
  rounds := 1
  config := twoOfSix
  topology := none
  faults := none
  limit := 0

/-- Runs of the closing pair have a discrepancy for the start, for the round and for
the end.  So have the results of its sweep, at probability zero too, where no run is
valid; and a trial from a seed that is negative stops for its run. -/
theorem closingPair_has_stated_shape : ∃ experiment : Experiment Float,
    Experiment.ofProtocol closingPair (Scalar.ofNat 1) 1 none none = .ok experiment ∧
    (∃ finished, run experiment 1 Scalar.zero = .ok finished ∧
      finished.IsShaped experiment Scalar.zero) ∧
    (∃ error cause, sample experiment { twoOfSix with seed := -1 } 0 = .error error ∧
      error = .run cause) ∧
    ∃ results, (sweep closingPair closingSettings [Scalar.zero, Scalar.ofNat 1]).results =
        .ok results ∧
      results.map (·.repetitions) = [0, 2] ∧
      results.map (·.p) = [Scalar.zero, Scalar.ofNat 1] ∧
      ∀ result ∈ results, result.meanByRound.length = 3 := by
  have hbinds : (Experiment.ofProtocol closingPair (Scalar.ofNat 1) 1 none none).isOk = true := by
    decide +kernel
  obtain ⟨experiment, hbind⟩ := exists_eq_ok hbinds
  obtain ⟨hruns, htrials, hsweeps⟩ := results_have_stated_shape (R := Float)
  have hplays : (run experiment 1 Scalar.zero).isOk = true := by
    cases hbind
    decide +kernel
  obtain ⟨finished, hrun⟩ := exists_eq_ok hplays
  have hstops : (sample experiment { twoOfSix with seed := -1 } 0).map (fun _ => ()) =
      .error (.run (.seed .negative)) := by
    cases hbind
    decide +kernel
  have hcounts : ((sweep closingPair closingSettings [Scalar.zero, Scalar.ofNat 1]).results.map
      fun results => results.map (·.repetitions)) = .ok [0, 2] := by decide +kernel
  obtain ⟨results, hresults, hrepetitions⟩ := map_eq_ok.mp hcounts
  obtain ⟨cause, hcause⟩ := (htrials experiment _ 0).1 _ (map_eq_error.mp hstops)
  obtain ⟨hps, hlengths⟩ := (hsweeps closingPair closingSettings _).2 results hresults
  exact ⟨experiment, hbind, ⟨finished, hrun, hruns experiment 1 _ finished hrun⟩,
    ⟨_, cause, map_eq_error.mp hstops, hcause⟩, results, hresults, hrepetitions, hps, hlengths⟩

end LossyConsensus.Sampling
