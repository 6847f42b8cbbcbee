/-
# Agreement that lasts

When every phase but the one at the end runs until consensus, no phase is active in
a round that begins with agreement.  Messages still arrive in such a round, changed
by faults or not, but each process keeps its value; so agreement, once there, lasts
through all rounds that follow.  The phase at the end may still break it.
-/

import LossyConsensus.Proofs.Simulation.Selection
import LossyConsensus.Proofs.Simulation.Summary

namespace LossyConsensus.Simulation

open LossyConsensus.Network LossyConsensus.Protocol LossyConsensus.Random

variable {R : Type} [Scalar R] {experiment : Experiment R} {network : Network R} {seed : Int}
  {tolerance : R} {finished : Run R}

/-- An experiment whose phases, but for the one at the end, run until consensus. -/
def Experiment.RunsUntilConsensus (experiment : Experiment R) : Prop :=
  ∀ phase ∈ experiment.phases, phase.isEnd = false → phase.kind = .untilConsensus

/-- A value that has arisen already, so that it arises nowhere else. -/
def HasArisen (value : R) : Prop :=
  ∀ round process, Scalar.arise round process value = value

/-! ## One round -/

/-- In a round that begins with agreement no phase is active. -/
theorem Experiment.RunsUntilConsensus.apply_eq (huntil : experiment.RunsUntilConsensus)
    (view : View R) (round : Int) : experiment.apply view round true = .ok view.own := by
  have hnone : experiment.roundPhases.filter (fun phase => phase.isActive round true) = [] := by
    rw [List.filter_eq_nil_iff]
    intro phase hphase
    obtain ⟨hmem, hround⟩ := List.mem_filter.mp hphase
    rw [Phase.isActive, huntil phase hmem (by simpa using hround)]
    exact Bool.false_ne_true
  rw [Experiment.apply, hnone]
  rfl

/-- What a step leaves has arisen in it, or before. -/
theorem hasArisen_of_commit [LastingScalar R] {round : Nat} {inboxes : Inboxes R}
    {values after : List R} {next : View R → Except EvalError R}
    (h : commit experiment round inboxes values next = .ok after) :
    ∀ value ∈ after, HasArisen value := by
  intro value hvalue round' process'
  obtain ⟨index, hindex, rfl⟩ := List.mem_iff_getElem.mp hvalue
  have hall := mapM_eq_ok.mp h
  have hat := (List.forall₂_iff_get.mp hall).2 index (by rw [hall.length_eq]; exact hindex) hindex
  obtain ⟨made, _, hmade⟩ := bind_eq_ok.mp hat
  have harisen : Scalar.arise round _ made = after[index] := pure_eq_ok.mp hmade
  rw [← harisen, LastingScalar.arise_arise]

/-- If every process keeps its own value, a step changes nothing. -/
theorem commit_of_own {round : Nat} {inboxes : Inboxes R} {values : List R}
    {next : View R → Except EvalError R} (hown : ∀ view, next view = .ok view.own)
    (harisen : ∀ value ∈ values, HasArisen value) :
    commit experiment round inboxes values next = .ok values := by
  have hkeeps : ∀ entry ∈ values.zipIdx 1, (do
      let value ← (next (experiment.view entry.2 entry.1
        (packed (inboxes.get entry.2)))).mapError RunError.evaluation
      return Scalar.arise round entry.2 value : Except (RunError R) R) = .ok entry.1 := by
    intro entry hentry
    have hmem : entry.1 ∈ values := by
      rw [← List.zipIdx_map_fst 1 values]
      exact List.mem_map_of_mem hentry
    rw [hown]
    exact congrArg Except.ok (harisen entry.1 hmem round entry.2)
  have hall := mapM_eq_ok_map hkeeps
  rwa [List.zipIdx_map_fst] at hall

/-- All values that a run reaches have arisen. -/
theorem Reached.hasArisen [LastingScalar R] {done : Nat} {values : List R}
    {generator : Generator}
    (hreached : Reached experiment seed tolerance network done values generator) :
    ∀ value ∈ values, HasArisen value := by
  cases hreached with
  | start _ hvalues => exact fun value hvalue => arise_of_mem_start hvalues hvalue
  | round _ hround => exact hasArisen_of_commit (playRound_parts hround).2

/-- A round that begins with agreement leaves every value as it was. -/
theorem Experiment.RunsUntilConsensus.after_eq (huntil : experiment.RunsUntilConsensus)
    {round : Nat} {values : List R} {generator next : Generator} {step : Step R}
    (hround : playRound experiment network tolerance round values generator = .ok (step, next))
    (harisen : ∀ value ∈ values, HasArisen value) (hagree : isConsensus tolerance values = true) :
    step.after = values := by
  have hcommit := (playRound_parts hround).2
  rw [hagree, commit_of_own (fun view => huntil.apply_eq view round) harisen] at hcommit
  exact (Except.ok.inj hcommit).symm

/-! ## All rounds that follow -/

/-- From a state of agreement on, all states of a run are the same. -/
theorem Experiment.RunsUntilConsensus.states_eq [LastingScalar R]
    (huntil : experiment.RunsUntilConsensus) (hrun : run experiment seed tolerance = .ok finished)
    {first : Nat} {held : List R} (hheld : finished.states[first]? = some held)
    (hagree : isConsensus tolerance held = true) {k : Nat} (hk : first ≤ k)
    (hrounds : k ≤ experiment.rounds) : finished.states[k]? = some held := by
  induction k, hk using Nat.le_induction with
  | base => exact hheld
  | succ k _ ih =>
      have hbefore := ih (Nat.le_of_succ_le hrounds)
      have hmore : k + 1 < finished.states.length := by
        rw [(length_states_of_run hrun).2]
        omega
      obtain ⟨step, hstep, rfl, _⟩ :=
        exists_round_of_states hrun hbefore (List.getElem?_eq_getElem hmore)
      obtain ⟨_, hafter, network, generator, next, _, hreached, hround⟩ :=
        exists_playRound_of_run hrun hstep
      rw [hafter, huntil.after_eq hround hreached.hasArisen hagree]

/-- Agreement is kept.  Take an experiment whose phases, but for the one at the end, run
until consensus, whatever its topology, faults, delivery models and channel.  If the
discrepancy that a finished run records after a round, or at the start, does not exceed
the tolerance, then the values of all processes stay as they are in every later round,
and so does the recorded discrepancy. -/
theorem agreement_lasts [LastingScalar R] (huntil : experiment.RunsUntilConsensus)
    (hrun : run experiment seed tolerance = .ok finished) {first : Nat}
    (hfirst : first ≤ experiment.rounds) {apart : R}
    (hrecorded : (finished.summary tolerance).discrepancies[first]? = some apart)
    (hagree : Scalar.le apart tolerance = true) :
    ∃ held, finished.states[first]? = some held ∧
      (∀ k step, finished.rounds[k]? = some step → first ≤ k →
        step.before = held ∧ step.after = held) ∧
      ∀ k, first ≤ k → k ≤ experiment.rounds → finished.states[k]? = some held ∧
        (finished.summary tolerance).discrepancies[k]? = some apart := by
  have hmore : first < finished.states.length := by
    rw [(length_states_of_run hrun).2]
    omega
  obtain ⟨held, hheld⟩ : ∃ held, finished.states[first]? = some held :=
    ⟨_, List.getElem?_eq_getElem hmore⟩
  obtain rfl : apart = discrepancy held :=
    Option.some.inj (hrecorded.symm.trans (getElem?_discrepancies_of_states hrun hheld))
  have hstates : ∀ k, first ≤ k → k ≤ experiment.rounds → finished.states[k]? = some held :=
    fun k hk hrounds => huntil.states_eq hrun hheld hagree hk hrounds
  refine ⟨held, hheld, ?_, ?_⟩
  · intro k step hstep hk
    obtain ⟨hbefore, hafter, _⟩ := exists_playRound_of_run hrun hstep
    have hround : k + 1 ≤ experiment.rounds := by
      rw [← (length_states_of_run hrun).1]
      exact (List.getElem?_eq_some_iff.mp hstep).choose
    rw [hstates k hk (by omega)] at hbefore
    rw [hstates (k + 1) (by omega) hround] at hafter
    exact ⟨(Option.some.inj hbefore).symm, (Option.some.inj hafter).symm⟩
  · intro k hk hrounds
    exact ⟨hstates k hk hrounds,
      getElem?_discrepancies_of_states hrun (hstates k hk hrounds)⟩

/-- Three processes that take the greatest value they have received until they agree,
while the third one tells the others the opposite of its value; at the end they take
the average of all they know. -/
def settlers : Experiment Value where
  name := "settlers"
  processes := 3
  rounds := 3
  p := Scalar.ofNat 1
  phases := [{ kind := .untilConsensus, rule := .assign (.plain "x") (.aggregate .max true) },
    { kind := .atEnd, rule := .combine .average }]
  leader := none
  parameters := []
  initial := .values [.ofReal 1.0, .ofReal 4.0, .ofReal 2.0]
  models := [{ kind := .standard }]
  channel := .guarantee .none
  topology := some .complete
  faults := some (.byzantine [3] .opposite)

/-- The settlers agree after the first round and do not change in the two that follow,
although the lies of the third process arrive; only the end sets them apart again. -/
theorem settlers_agreement_lasts : ∃ finished held, settlers.RunsUntilConsensus ∧
    run settlers 1 Scalar.zero = .ok finished ∧
    (finished.summary Scalar.zero).deliveredPerRound = [6, 6, 6] ∧
    (finished.summary Scalar.zero).finalConsensus = false ∧
    finished.states[1]? = some held ∧
    (∀ k step, finished.rounds[k]? = some step → 1 ≤ k → step.before = held ∧ step.after = held) ∧
    ∀ k, 1 ≤ k → k ≤ 3 → finished.states[k]? = some held := by
  have hplays : (run settlers 1 Scalar.zero).isOk = true := by decide +kernel
  obtain ⟨finished, hrun⟩ := exists_eq_ok hplays
  have hsummary : ((run settlers 1 Scalar.zero).toOption.map fun finished =>
      ((finished.summary Scalar.zero).deliveredPerRound,
        (finished.summary Scalar.zero).finalConsensus,
        ((finished.summary Scalar.zero).discrepancies[1]?).map
          fun apart => Scalar.le apart Scalar.zero)) = some ([6, 6, 6], false, some true) := by
    decide +kernel
  rw [hrun] at hsummary
  obtain ⟨hdelivered, hsummary⟩ := Prod.mk.inj (Option.some.inj hsummary)
  obtain ⟨hfinal, hfirst⟩ := Prod.mk.inj hsummary
  obtain ⟨apart, hrecorded, hagree⟩ := Option.map_eq_some_iff.mp hfirst
  have huntil : settlers.RunsUntilConsensus := by
    intro phase hphase hround
    simp only [settlers, List.mem_cons, List.not_mem_nil, or_false] at hphase
    rcases hphase with rfl | rfl
    · rfl
    · cases hround
  obtain ⟨held, hheld, hsteps, hstates⟩ :=
    agreement_lasts huntil hrun (by decide) hrecorded hagree
  exact ⟨finished, held, huntil, hrun, hdelivered, hfinal, hheld, hsteps,
    fun k hk hrounds => (hstates k hk hrounds).1⟩

end LossyConsensus.Simulation
