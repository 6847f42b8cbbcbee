/-
# Summaries of runs

The numbers of a summary are as many as the experiment promises before it runs:
a discrepancy for the start, for each round and for the phase at the end, a count
of messages for each round and a final value for each process.  The last
discrepancy is that of the final values, and it decides about consensus.
-/

import LossyConsensus.Proofs.Simulation.Step

namespace LossyConsensus.Simulation

open LossyConsensus.Network LossyConsensus.Random

variable {R : Type} [Scalar R]

/-- A run whose summary is made as its experiment promises. -/
structure Run.IsShaped (experiment : Experiment R) (tolerance : R) (finished : Run R) :
    Prop where
  discrepancies : (finished.summary tolerance).discrepancies.length =
    experiment.rounds + 1 + if experiment.hasEnd then 1 else 0
  traceLength : (finished.summary tolerance).discrepancies.length = experiment.traceLength
  perRound : (finished.summary tolerance).deliveredPerRound.length = experiment.rounds
  total : (finished.summary tolerance).totalDelivered =
    (finished.summary tolerance).deliveredPerRound.sum
  allSteps : (finished.summary tolerance).totalDelivered =
    (finished.steps.map (·.delivered)).sum
  finalValues : (finished.summary tolerance).finalValues.length = experiment.processes
  last : (finished.summary tolerance).discrepancies.getLast? =
    some (finished.summary tolerance).finalDiscrepancy
  final : (finished.summary tolerance).finalDiscrepancy =
    discrepancy (finished.summary tolerance).finalValues
  consensus : (finished.summary tolerance).finalConsensus = true ↔
    Scalar.le (finished.summary tolerance).finalDiscrepancy tolerance = true

variable {experiment : Experiment R} {seed : Int} {tolerance : R} {finished : Run R}

/-! ## The last step -/

omit [Scalar R] in
/-- The values after some steps are the last ones of all states. -/
theorem getLast?_states (start : List R) (steps : List (Step R)) :
    (start :: steps.map (·.after)).getLast? = some (valuesAfter start steps) := by
  rw [List.getLast?_cons, List.getLast?_map, valuesAfter]

/-- The discrepancies of a summary are those of all states, the one at the end
included. -/
theorem discrepancies_eq_map (finished : Run R) (tolerance : R) :
    (finished.summary tolerance).discrepancies =
      (finished.start :: finished.steps.map (·.after)).map discrepancy := by
  rw [Run.summary, List.map_cons, List.map_map]
  rfl

/-- The states of the rounds come first among all states. -/
theorem getElem?_of_states (h : run experiment seed tolerance = .ok finished) {k : Nat}
    {held : List R} (hheld : finished.states[k]? = some held) :
    (finished.start :: finished.steps.map (·.after))[k]? = some held := by
  cases k with
  | zero => exact hheld
  | succ k =>
      rw [Run.states, List.getElem?_cons_succ, List.getElem?_map] at hheld
      obtain ⟨step, hstep, rfl⟩ := Option.map_eq_some_iff.mp hheld
      rw [List.getElem?_cons_succ, List.getElem?_map, getElem?_steps_of_rounds h hstep]
      rfl

/-- The discrepancy that a summary gives for a round is that of the state after it. -/
theorem getElem?_discrepancies_of_states (h : run experiment seed tolerance = .ok finished)
    {k : Nat} {held : List R} (hheld : finished.states[k]? = some held) :
    (finished.summary tolerance).discrepancies[k]? = some (discrepancy held) := by
  rw [discrepancies_eq_map, List.getElem?_map, getElem?_of_states h hheld]
  rfl

/-- The rounds of a run leave the last of its states. -/
theorem getElem?_states_of_rounds (h : run experiment seed tolerance = .ok finished) :
    finished.states[experiment.rounds]? = some (valuesAfter finished.start finished.rounds) := by
  have hlast := getLast?_states finished.start finished.rounds
  rwa [← Run.states, List.getLast?_eq_getElem?, (length_states_of_run h).2,
    Nat.add_sub_cancel] at hlast

/-- Each step starts from the values that the one before it has left. -/
theorem getElem?_states_of_step (h : run experiment seed tolerance = .ok finished) {k : Nat}
    {step : Step R} (hstep : finished.steps[k]? = some step) :
    (finished.start :: finished.steps.map (·.after))[k]? = some step.before := by
  refine getElem?_of_states h ?_
  rcases round_or_end_of_step h hstep with hround | ⟨_, rfl, hplay⟩
  · exact (exists_playRound_of_run h hround).1
  · rw [(playEnd_parts hplay).2.1]
    exact getElem?_states_of_rounds h

theorem getLast?_discrepancies (finished : Run R) (tolerance : R) :
    (finished.summary tolerance).discrepancies.getLast? =
      some (finished.summary tolerance).finalDiscrepancy := by
  rw [discrepancies_eq_map, List.getLast?_map, getLast?_states]
  rfl

/-! ## Counting -/

theorem length_of_mem_states (h : run experiment seed tolerance = .ok finished) {held : List R}
    (hmem : held ∈ finished.states) : held.length = experiment.processes := by
  rcases List.mem_cons.mp hmem with rfl | hmem
  · obtain ⟨_, _, _, _, hstart, _⟩ := exists_playRounds_of_run h
    exact length_initialValues hstart
  · obtain ⟨step, hstep, rfl⟩ := List.mem_map.mp hmem
    obtain ⟨k, hat⟩ := List.mem_iff_getElem?.mp hstep
    obtain ⟨_, _, _, _, _, _, hreached, hround⟩ := exists_playRound_of_run h hat
    exact (hreached.round hround).length_eq

/-- Every step of a run leaves a value for each process. -/
theorem length_after_of_run (h : run experiment seed tolerance = .ok finished) {step : Step R}
    (hstep : step ∈ finished.steps) : step.after.length = experiment.processes := by
  obtain ⟨k, hat⟩ := List.mem_iff_getElem?.mp hstep
  rcases round_or_end_of_step h hat with hround | ⟨_, _, hplay⟩
  · exact length_of_mem_states h (List.mem_of_getElem? (exists_playRound_of_run h hround).2.1)
  · obtain ⟨_, _, _, _, hcommit⟩ := playEnd_parts hplay
    rw [length_commit hcommit]
    exact length_of_mem_states h (List.mem_of_getElem? (getElem?_states_of_rounds h))

/-- The phase at the end delivers nothing, so the messages of the rounds are those
of all steps. -/
theorem sum_delivered_of_run (h : run experiment seed tolerance = .ok finished) :
    (finished.rounds.map (·.delivered)).sum = (finished.steps.map (·.delivered)).sum := by
  rcases steps_of_run h with ⟨_, hsteps⟩ | ⟨_, last, hsteps, hlast⟩
  · rw [hsteps]
  · rw [hsteps, List.map_append, List.sum_append, List.map_singleton, List.sum_singleton,
      delivered_of_playEnd hlast, Nat.add_zero]

/-- A run that ends has a summary that is made as its experiment promises. -/
theorem isShaped_of_run (h : run experiment seed tolerance = .ok finished) :
    finished.IsShaped experiment tolerance := by
  refine ⟨length_discrepancies_of_run h, length_discrepancies_of_run h, ?_, rfl,
    sum_delivered_of_run h, ?_, getLast?_discrepancies finished tolerance, rfl, Iff.rfl⟩
  · rw [Run.summary, List.length_map]
    exact (length_states_of_run h).1
  · have hfinal := List.mem_of_getLast? (getLast?_states finished.start finished.steps)
    change (valuesAfter finished.start finished.steps).length = experiment.processes
    rcases List.mem_cons.mp hfinal with heq | hmem
    · rw [heq]
      exact length_of_mem_states h List.mem_cons_self
    · obtain ⟨step, hstep, heq⟩ := List.mem_map.mp hmem
      rw [← heq]
      exact length_after_of_run h hstep

/-- A protocol that is bound keeps its phases, so it can be told from the protocol
how many discrepancies its runs record. -/
theorem traceLength_of_ofProtocol {protocol : LossyConsensus.Protocol R} {p : R} {rounds : Int}
    {topology : Option (Topology R)} {faults : Option (Fault R)}
    (h : Experiment.ofProtocol protocol p rounds topology faults = .ok experiment) :
    experiment.p = p ∧
      experiment.traceLength =
        rounds.toNat + 1 + if protocol.phases.any Protocol.Phase.isEnd then 1 else 0 := by
  obtain ⟨hphases, _, _, hp, hrounds⟩ := ofProtocol_eq_ok h
  rw [Experiment.traceLength, Experiment.hasEnd, hphases, hrounds]
  exact ⟨hp, rfl⟩

end LossyConsensus.Simulation
