/-
# Steps of a run

A run is made of steps: its rounds, and after them the phase at the end if there
is one.  In each of them every process computes its next value by itself, from
its own value and its own inbox, and the phase at the end finds the inboxes that
the last round has left.
-/

import LossyConsensus.Proofs.Simulation.Flooding

namespace LossyConsensus.Simulation

open LossyConsensus.Network LossyConsensus.Protocol LossyConsensus.Random

variable {R : Type} [Scalar R] {experiment : Experiment R} {network : Network R} {tolerance : R}

/-- The inboxes that the phase at the end sees: those of the last round, or empty
ones. -/
def lastInboxes (experiment : Experiment R) (rounds : List (Step R)) : Inboxes R :=
  (rounds.getLast?.map (·.inboxes)).getD (Inboxes.empty experiment.processes)

/-! ## One step -/

/-- What a process takes in a step is computed from its own value and its own
inbox. -/
theorem exists_of_commit {round : Nat} {inboxes : Inboxes R} {values after : List R}
    {next : View R → Except EvalError R}
    (h : commit experiment round inboxes values next = .ok after) {id : Int}
    (hid : id ∈ processIds values.length) :
    ∃ own value, valueOf values id = some own ∧
      next (experiment.view id own (packed (inboxes.get id))) = .ok value ∧
      valueOf after id = some (Scalar.arise round id value) := by
  have hall := mapM_eq_ok.mp h
  have hlength := length_commit h
  obtain ⟨hlow, hhigh⟩ := mem_processIds.mp hid
  have hindex : (id - 1).toNat < values.length := by omega
  have hat := (List.forall₂_iff_get.mp hall).2 (id - 1).toNat (by simpa using hindex)
    (hlength ▸ hindex)
  have hnumber : ((1 + (id - 1).toNat : Nat) : Int) = id := by omega
  simp only [List.get_eq_getElem, List.getElem_zipIdx, hnumber] at hat
  obtain ⟨value, hvalue, hafter⟩ := bind_eq_ok.mp hat
  refine ⟨_, value, List.getElem?_eq_getElem hindex, mapError_eq_ok.mp hvalue, ?_⟩
  rw [valueOf, List.getElem?_eq_getElem (hlength ▸ hindex), pure_eq_ok.mp hafter]

/-- A step fails for a process that has no next value. -/
theorem exists_of_commit_eq_error {round : Nat} {inboxes : Inboxes R} {values : List R}
    {next : View R → Except EvalError R} {error : RunError R}
    (h : commit experiment round inboxes values next = .error error) :
    ∃ id ∈ processIds values.length, ∃ own reason, valueOf values id = some own ∧
      error = .evaluation reason ∧
      next (experiment.view id own (packed (inboxes.get id))) = .error reason := by
  obtain ⟨⟨own, id⟩, hmem, h⟩ := exists_mem_of_mapM_eq_error h
  obtain ⟨hlow, hown⟩ := List.mk_mem_zipIdx_iff_le_and_getElem?_sub.mp hmem
  obtain ⟨hlt, _⟩ := List.getElem?_eq_some_iff.mp hown
  rcases bind_eq_error.mp h with h | ⟨value, _, h⟩
  · obtain ⟨reason, hreason, rfl⟩ := mapError_eq_error.mp h
    refine ⟨id, mem_processIds.mpr (by omega), own, reason, ?_, rfl, hreason⟩
    rw [valueOf, show ((id : Int) - 1).toNat = id - 1 by omega]
    exact hown
  · exact absurd h pure_ne_error

theorem playRound_parts {round : Nat} {values : List R} {generator next : Generator}
    {step : Step R}
    (h : playRound experiment network tolerance round values generator = .ok (step, next)) :
    exchange experiment network values round generator = .ok (step.inboxes, next) ∧
      commit experiment round step.inboxes values
        (fun view => experiment.apply view round (isConsensus tolerance values)) =
        .ok step.after := by
  obtain ⟨inboxes, after, hexchange, hafter, rfl⟩ := exists_of_playRound h
  exact ⟨hexchange, hafter⟩

theorem playEnd_parts {values : List R} {inboxes : Inboxes R} {step : Step R}
    (h : playEnd experiment values inboxes = .ok step) :
    step.round = experiment.rounds + 1 ∧ step.before = values ∧ step.inboxes = inboxes ∧
      step.isEnd = true ∧
      commit experiment (experiment.rounds + 1) inboxes values experiment.applyEnd =
        .ok step.after := by
  obtain ⟨after, hafter, rfl⟩ := exists_of_playEnd h
  exact ⟨rfl, rfl, rfl, rfl, hafter⟩

/-- The phase at the end delivers nothing. -/
theorem delivered_of_playEnd {values : List R} {inboxes : Inboxes R} {step : Step R}
    (h : playEnd experiment values inboxes = .ok step) : step.delivered = 0 := by
  obtain ⟨_, _, rfl⟩ := exists_of_playEnd h
  rfl

/-! ## All steps -/

/-- Lists that are related item by item end with related items. -/
theorem rel_getLast? {α : Type} {related : α → α → Prop} {items items' : List α}
    (h : List.Forall₂ related items items') :
    Option.Rel related items.getLast? items'.getLast? := by
  have hhead : ∀ items items' : List α, List.Forall₂ related items items' →
      Option.Rel related items.head? items'.head? := by
    intro items items' h
    cases h with
    | nil => exact .none
    | cons hlast _ => exact .some hlast
  rw [List.getLast?_eq_head?_reverse, List.getLast?_eq_head?_reverse]
  exact hhead _ _ (List.rel_reverse h)

omit [Scalar R] in
theorem valuesAfter_cons (start : List R) (step : Step R) (steps : List (Step R)) :
    valuesAfter start (step :: steps) = valuesAfter step.after steps := by
  rw [valuesAfter, valuesAfter, List.getLast?_cons]
  cases steps.getLast? with
  | none => rfl
  | some last => rfl

/-- The steps of a finished run are its rounds, and after them the phase at the end
if there is one. -/
theorem steps_of_run {seed : Int} {finished : Run R}
    (h : run experiment seed tolerance = .ok finished) :
    (experiment.hasEnd = false ∧ finished.steps = finished.rounds) ∨
      experiment.hasEnd = true ∧ ∃ last, finished.steps = finished.rounds ++ [last] ∧
        playEnd experiment (valuesAfter finished.start finished.rounds)
          (lastInboxes experiment finished.rounds) = .ok last := by
  obtain ⟨_, _, _, _, _, _, hsteps⟩ := exists_of_run h
  exact hsteps

/-- Each round of a finished run was played from the values of the state before it,
and left those of the state after it. -/
theorem exists_playRound_of_run {seed : Int} {finished : Run R}
    (h : run experiment seed tolerance = .ok finished) {k : Nat} {step : Step R}
    (hstep : finished.rounds[k]? = some step) :
    finished.states[k]? = some step.before ∧ finished.states[k + 1]? = some step.after ∧
      ∃ network generator next, Network.ofExperiment experiment = .ok network ∧
        Reached experiment seed tolerance network k step.before generator ∧
        playRound experiment network tolerance (k + 1) step.before generator =
          .ok (step, next) := by
  obtain ⟨network, generator, hnetwork, hgenerator, hvalues, hrounds, _⟩ :=
    exists_playRounds_of_run h
  have hreached : Reached experiment seed tolerance network 0 finished.start generator :=
    .start hgenerator hvalues
  obtain ⟨hbefore, drawn, next, hat, hround⟩ :=
    (reached_of_playRounds hreached hrounds).2 k step hstep
  rw [Nat.zero_add] at hat hround
  refine ⟨hbefore, ?_, network, drawn, next, hnetwork, hat, hround⟩
  rw [Run.states, List.getElem?_cons_succ, List.getElem?_map, hstep]
  rfl

/-- A run has one state more than it has rounds. -/
theorem length_states_of_run {seed : Int} {finished : Run R}
    (h : run experiment seed tolerance = .ok finished) :
    finished.rounds.length = experiment.rounds ∧
      finished.states.length = experiment.rounds + 1 := by
  obtain ⟨network, generator, _, hgenerator, hvalues, hrounds, _⟩ := exists_playRounds_of_run h
  have hreached : Reached experiment seed tolerance network 0 finished.start generator :=
    .start hgenerator hvalues
  have hlength := (reached_of_playRounds hreached hrounds).1
  exact ⟨hlength, by rw [Run.states, List.length_cons, List.length_map, hlength]⟩

/-- Between two states of a run that follow each other stands a round. -/
theorem exists_round_of_states {seed : Int} {finished : Run R}
    (h : run experiment seed tolerance = .ok finished) {k : Nat} {values next : List R}
    (hvalues : finished.states[k]? = some values) (hnext : finished.states[k + 1]? = some next) :
    ∃ step, finished.rounds[k]? = some step ∧ step.before = values ∧ step.after = next := by
  rw [Run.states, List.getElem?_cons_succ, List.getElem?_map] at hnext
  obtain ⟨step, hstep, rfl⟩ := Option.map_eq_some_iff.mp hnext
  obtain ⟨hbefore, _⟩ := exists_playRound_of_run h hstep
  exact ⟨step, hstep, Option.some.inj (hbefore.symm.trans hvalues), rfl⟩

/-- The last round was played from the last state but one. -/
theorem exists_last_round {seed : Int} {finished : Run R}
    (h : run experiment seed tolerance = .ok finished) (hpos : 1 ≤ experiment.rounds)
    {values : List R} (hvalues : finished.states[experiment.rounds - 1]? = some values) :
    ∃ step, finished.rounds.getLast? = some step ∧ step.before = values := by
  obtain ⟨hrounds, hstates⟩ := length_states_of_run h
  have hlt : experiment.rounds - 1 + 1 < finished.states.length := by omega
  obtain ⟨step, hstep, hbefore, _⟩ :=
    exists_round_of_states h hvalues (List.getElem?_eq_getElem hlt)
  refine ⟨step, ?_, hbefore⟩
  rw [List.getLast?_eq_getElem?, hrounds]
  exact hstep

/-- The rounds of a finished run come first among its steps. -/
theorem getElem?_steps_of_rounds {seed : Int} {finished : Run R}
    (h : run experiment seed tolerance = .ok finished) {k : Nat} {step : Step R}
    (hstep : finished.rounds[k]? = some step) : finished.steps[k]? = some step := by
  rcases steps_of_run h with ⟨_, hsteps⟩ | ⟨_, last, hsteps, _⟩
  · rw [hsteps, hstep]
  · rw [hsteps, List.getElem?_append_left (List.getElem?_eq_some_iff.mp hstep).choose, hstep]

/-- If there is a phase at the end, a finished run has played it after its rounds. -/
theorem exists_end_of_run {seed : Int} {finished : Run R}
    (h : run experiment seed tolerance = .ok finished) (hend : experiment.hasEnd = true) :
    ∃ last, finished.steps[experiment.rounds]? = some last ∧
      playEnd experiment (valuesAfter finished.start finished.rounds)
        (lastInboxes experiment finished.rounds) = .ok last := by
  rcases steps_of_run h with ⟨hnone, _⟩ | ⟨_, last, hsteps, hplay⟩
  · rw [hend] at hnone
    cases hnone
  · refine ⟨last, ?_, hplay⟩
    rw [hsteps, ← (length_states_of_run h).1, List.getElem?_concat_length]

/-- A step of a finished run is one of its rounds, or the phase at the end. -/
theorem round_or_end_of_step {seed : Int} {finished : Run R}
    (h : run experiment seed tolerance = .ok finished) {k : Nat} {step : Step R}
    (hstep : finished.steps[k]? = some step) :
    finished.rounds[k]? = some step ∨ experiment.hasEnd = true ∧ k = experiment.rounds ∧
      playEnd experiment (valuesAfter finished.start finished.rounds)
        (lastInboxes experiment finished.rounds) = .ok step := by
  rcases steps_of_run h with ⟨_, hsteps⟩ | ⟨hend, last, hsteps, hplay⟩
  · exact .inl (hsteps ▸ hstep)
  · by_cases hlt : k < finished.rounds.length
    · rw [hsteps, List.getElem?_append_left hlt] at hstep
      exact .inl hstep
    · rw [hsteps, List.getElem?_append_right (Nat.le_of_not_lt hlt),
        List.getElem?_singleton] at hstep
      obtain ⟨hat, hlast⟩ := Option.ite_none_right_eq_some.mp hstep
      obtain rfl := Option.some.inj hlast
      have hcount := (length_states_of_run h).1
      exact .inr ⟨hend, by omega, hplay⟩

end LossyConsensus.Simulation
