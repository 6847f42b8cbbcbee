/-
# Evaluations in a run

Where in a run the rules of phases are evaluated, and in which views.  In each step
every process goes through the active phases one after the other, and each of them
sees the inbox of the step and the value that the phase before it gave.  This is
said of every step that a run comes to, of one in which it stops without a result
as well.
-/

import LossyConsensus.Proofs.Simulation.Step

namespace LossyConsensus.Simulation

open LossyConsensus.Network LossyConsensus.Protocol LossyConsensus.Random

variable {R : Type} [Scalar R]

/-- Phases that run one after the other, each with the view in which its rule is
evaluated.  Nothing is evaluated after a rule that has no value. -/
def visits (view : View R) : List (Phase R) → List (Phase R × View R)
  | [] => []
  | phase :: rest =>
      (phase, view) :: match phase.rule.eval view with
        | .ok own => visits { view with own } rest
        | .error _ => []

/-- The phases that are active in a round. -/
def Experiment.activePhases (experiment : Experiment R) (round : Int) (consensus : Bool) :
    List (Phase R) :=
  experiment.roundPhases.filter fun phase => phase.isActive round consensus

/-- A step that a run comes to: its number, the values before it, its inboxes and
the phases that run in it.  The phase at the end comes after the last round and sees
its inboxes, or after the start if there is no round. -/
inductive Stage (experiment : Experiment R) (seed : Int) (tolerance : R) :
    Nat → List R → Inboxes R → List (Phase R) → Prop
  | round {network : Network R} {done : Nat} {values : List R} {generator next : Generator}
      {inboxes : Inboxes R} (hnetwork : Network.ofExperiment experiment = .ok network)
      (hreached : Reached experiment seed tolerance network done values generator)
      (hmore : done < experiment.rounds)
      (hexchange : exchange experiment network values ((done + 1 : Nat) : Int) generator =
        .ok (inboxes, next)) :
      Stage experiment seed tolerance (done + 1) values inboxes
        (experiment.activePhases ((done + 1 : Nat) : Int) (isConsensus tolerance values))
  | afterRound {network : Network R} {done : Nat} {values : List R} {generator next : Generator}
      {step : Step R} (hnetwork : Network.ofExperiment experiment = .ok network)
      (hreached : Reached experiment seed tolerance network done values generator)
      (hlast : done + 1 = experiment.rounds)
      (hround : playRound experiment network tolerance (done + 1) values generator =
        .ok (step, next))
      (hend : experiment.hasEnd = true) :
      Stage experiment seed tolerance (experiment.rounds + 1) step.after step.inboxes
        experiment.endPhases
  | afterStart {values : List R} (hvalues : initialValues experiment = .ok values)
      (hnone : experiment.rounds = 0) (hend : experiment.hasEnd = true) :
      Stage experiment seed tolerance (experiment.rounds + 1) values
        (Inboxes.empty experiment.processes) experiment.endPhases

/-- In a step that a run comes to, a process evaluates the rule of a phase in a
view. -/
def Evaluates (experiment : Experiment R) (seed : Int) (tolerance : R) (round : Nat) (id : Int)
    (phase : Phase R) (view : View R) : Prop :=
  ∃ values inboxes phases own, Stage experiment seed tolerance round values inboxes phases ∧
    id ∈ processIds experiment.processes ∧ valueOf values id = some own ∧
    (phase, view) ∈ visits (experiment.view id own (packed (inboxes.get id))) phases

/-! ## Phases in a row -/

/-- Phases in a row see the same but for the value that the ones before have
given. -/
theorem exists_own_of_mem_visits {view : View R} {phases : List (Phase R)}
    {visit : Phase R × View R} (h : visit ∈ visits view phases) :
    visit.1 ∈ phases ∧ ∃ own, visit.2 = { view with own } := by
  induction phases generalizing view with
  | nil => cases h
  | cons phase rest ih =>
      rw [visits] at h
      rcases List.mem_cons.mp h with rfl | h
      · exact ⟨List.mem_cons_self, view.own, rfl⟩
      · split at h
        · obtain ⟨hmem, own, hview⟩ := ih h
          exact ⟨List.mem_cons_of_mem _ hmem, own, hview⟩
        · cases h

/-- Phases in a row have no value if one of them has none in its view. -/
theorem runPhases_eq_error_iff {view : View R} {phases : List (Phase R)} {reason : EvalError} :
    Experiment.runPhases view phases = .error reason ↔
      ∃ visit ∈ visits view phases, visit.1.rule.eval visit.2 = .error reason := by
  induction phases generalizing view with
  | nil => simp [Experiment.runPhases, visits]
  | cons phase rest ih =>
      rw [Experiment.runPhases, visits, List.exists_mem_cons_iff, bind_eq_error]
      refine or_congr Iff.rfl ?_
      cases phase.rule.eval view with
      | error other => simp
      | ok own => simpa using ih

/-- Phases in a row that have a value are all evaluated. -/
theorem map_fst_visits {view : View R} {phases : List (Phase R)} {value : R}
    (h : Experiment.runPhases view phases = .ok value) :
    (visits view phases).map (·.1) = phases := by
  induction phases generalizing view with
  | nil => rfl
  | cons phase rest ih =>
      rw [Experiment.runPhases, bind_eq_ok] at h
      obtain ⟨own, hown, h⟩ := h
      rw [visits, hown]
      exact congrArg (phase :: ·) (ih h)

variable {experiment : Experiment R} {seed : Int} {tolerance : R} {network : Network R}

/-! ## Failing runs -/

/-- An exchange of messages evaluates nothing. -/
theorem exchange_ne_evaluation {values : List R} {round : Int} {generator : Generator}
    {reason : EvalError} :
    exchange experiment network values round generator ≠ .error (.evaluation reason) := by
  intro h
  rw [exchange, bind_eq_error] at h
  rcases h with h | ⟨outbound, _, h⟩
  · rw [sent] at h
    split at h
    · cases h
    · obtain ⟨error, _, heq⟩ := mapError_eq_error.mp h
      cases heq
  · rcases bind_eq_error.mp h with h | ⟨inboxes, _, h⟩
    · rw [enforce] at h
      split at h
      · cases h
      · cases h
    · exact absurd h pure_ne_error

theorem ofExperiment_ne_evaluation {reason : EvalError} :
    Network.ofExperiment experiment ≠ .error (.evaluation reason) := by
  intro h
  rw [Network.ofExperiment, bind_eq_error] at h
  rcases h with h | ⟨assignment, _, h⟩
  · obtain ⟨error, _, heq⟩ := mapError_eq_error.mp h
    cases heq
  · rcases bind_eq_error.mp h with h | ⟨neighbors, _, h⟩
    · cases htopology : experiment.topology with
      | none =>
          rw [htopology] at h
          cases h
      | some topology =>
          rw [htopology, Option.mapM_some, map_eq_pure_bind, bind_eq_error] at h
          rcases h with h | ⟨table, _, h⟩
          · obtain ⟨id, _, h⟩ := exists_mem_of_mapM_eq_error h
            rcases bind_eq_error.mp h with h | ⟨ids, _, h⟩
            · obtain ⟨error, _, heq⟩ := mapError_eq_error.mp h
              cases heq
            · exact absurd h pure_ne_error
          · exact absurd h pure_ne_error
    · exact absurd h pure_ne_error

/-- A process that has no next value in a step which a run comes to. -/
def FailsAt (experiment : Experiment R) (seed : Int) (tolerance : R) (reason : EvalError) : Prop :=
  ∃ round values inboxes phases id own,
    Stage experiment seed tolerance round values inboxes phases ∧
    id ∈ processIds experiment.processes ∧ valueOf values id = some own ∧
    Experiment.runPhases (experiment.view id own (packed (inboxes.get id))) phases = .error reason

/-- Rounds that stop for an evaluation stop for that of a process in one of them. -/
theorem failsAt_of_playRounds {count done : Nat} {values : List R} {generator : Generator}
    {reason : EvalError} (hnetwork : Network.ofExperiment experiment = .ok network)
    (hreached : Reached experiment seed tolerance network done values generator)
    (hcount : done + count = experiment.rounds)
    (h : playRounds experiment network tolerance count (done + 1) values generator =
      .error (.evaluation reason)) : FailsAt experiment seed tolerance reason := by
  induction count generalizing done values generator with
  | zero => cases h
  | succ count ih =>
      rw [playRounds, bind_eq_error] at h
      rcases h with h | ⟨⟨step, next⟩, hround, h⟩
      · rw [playRound, bind_eq_error] at h
        rcases h with h | ⟨⟨inboxes, next⟩, hexchange, h⟩
        · exact absurd h exchange_ne_evaluation
        · rcases bind_eq_error.mp h with h | ⟨after, _, h⟩
          · obtain ⟨id, hid, own, found, hown, heq, hfound⟩ := exists_of_commit_eq_error h
            cases heq
            rw [hreached.length_eq] at hid
            exact ⟨_, _, _, _, id, own, .round hnetwork hreached (by omega) hexchange, hid, hown,
              hfound⟩
          · exact absurd h pure_ne_error
      · rcases bind_eq_error.mp h with h | ⟨steps, _, h⟩
        · exact ih (hreached.round hround) (by omega) h
        · exact absurd h pure_ne_error

/-- The phase at the end of a run is played in a step that the run comes to. -/
theorem stage_of_playRounds {start : List R} {generator : Generator} {rounds : List (Step R)}
    (hnetwork : Network.ofExperiment experiment = .ok network)
    (hgenerator : Generator.ofSeed seed = .ok generator)
    (hstart : initialValues experiment = .ok start)
    (hrounds : playRounds experiment network tolerance experiment.rounds 1 start generator =
      .ok rounds)
    (hend : experiment.hasEnd = true) :
    (valuesAfter start rounds).length = experiment.processes ∧
      Stage experiment seed tolerance (experiment.rounds + 1) (valuesAfter start rounds)
        (lastInboxes experiment rounds) experiment.endPhases := by
  obtain ⟨hlength, hsteps⟩ := reached_of_playRounds (.start hgenerator hstart) hrounds
  cases hlast : rounds.getLast? with
  | none =>
      obtain rfl := List.getLast?_eq_none_iff.mp hlast
      exact ⟨length_initialValues hstart, .afterStart hstart hlength.symm hend⟩
  | some last =>
      have hpos : 0 < rounds.length :=
        List.length_pos_iff.mpr (List.ne_nil_of_mem (List.mem_of_getLast? hlast))
      have hat := hlast
      rw [List.getLast?_eq_getElem?] at hat
      obtain ⟨_, drawn, next, hreached, hround⟩ := hsteps _ last hat
      rw [Nat.zero_add] at hreached hround
      rw [valuesAfter, lastInboxes, hlast]
      exact ⟨(hreached.round hround).length_eq,
        .afterRound hnetwork hreached (by omega) hround hend⟩

/-- A run that stops for an evaluation stops for that of an initial value, or for
that of a process in a step that it comes to. -/
theorem failsAt_of_run {reason : EvalError}
    (h : run experiment seed tolerance = .error (.evaluation reason)) :
    (∃ id, experiment.initialValue id = .error reason) ∨
      FailsAt experiment seed tolerance reason := by
  rw [run, bind_eq_error] at h
  rcases h with h | ⟨generator, hgenerator, h⟩
  · obtain ⟨error, _, heq⟩ := mapError_eq_error.mp h
    cases heq
  have hseeded := mapError_eq_ok.mp hgenerator
  rcases bind_eq_error.mp h with h | ⟨network, hnetwork, h⟩
  · exact absurd h ofExperiment_ne_evaluation
  rcases bind_eq_error.mp h with h | ⟨start, hstart, h⟩
  · obtain ⟨k, _, h⟩ := exists_mem_of_mapM_eq_error h
    rcases bind_eq_error.mp h with h | ⟨value, _, h⟩
    · obtain ⟨found, hfound, heq⟩ := mapError_eq_error.mp h
      cases heq
      exact .inl ⟨k + 1, hfound⟩
    · exact absurd h pure_ne_error
  rcases bind_eq_error.mp h with h | ⟨rounds, hrounds, h⟩
  · exact .inr (failsAt_of_playRounds hnetwork (.start hseeded hstart) (Nat.zero_add _) h)
  split at h
  · next hend =>
    rcases bind_eq_error.mp h with h | ⟨last, _, h⟩
    · rw [playEnd, bind_eq_error] at h
      rcases h with h | ⟨after, _, h⟩
      · obtain ⟨id, hid, own, found, hown, heq, hfound⟩ := exists_of_commit_eq_error h
        cases heq
        obtain ⟨hlength, hstage⟩ := stage_of_playRounds hnetwork hseeded hstart hrounds hend
        rw [hlength] at hid
        exact .inr ⟨_, _, _, _, id, own, hstage, hid, hown, hfound⟩
      · exact absurd h pure_ne_error
    · exact absurd h pure_ne_error
  · exact absurd h pure_ne_error

/-- So it stops for the rule of a phase in a view in which it is evaluated. -/
theorem FailsAt.exists_evaluates {reason : EvalError}
    (h : FailsAt experiment seed tolerance reason) :
    ∃ round id phase view, Evaluates experiment seed tolerance round id phase view ∧
      phase.rule.eval view = .error reason := by
  obtain ⟨round, values, inboxes, phases, id, own, hstage, hid, hown, hfails⟩ := h
  obtain ⟨⟨phase, view⟩, hvisit, heval⟩ := runPhases_eq_error_iff.mp hfails
  exact ⟨round, id, phase, view, ⟨values, inboxes, phases, own, hstage, hid, hown, hvisit⟩, heval⟩

/-! ## Finished runs -/

/-- A run has the same values and the same generator whenever it has played so many
rounds. -/
theorem Reached.unique {done : Nat} {values values' : List R} {generator generator' : Generator}
    (h : Reached experiment seed tolerance network done values generator)
    (h' : Reached experiment seed tolerance network done values' generator') :
    values = values' ∧ generator = generator' := by
  induction h generalizing values' generator' with
  | start hgenerator hvalues =>
      cases h' with
      | start hgenerator' hvalues' =>
          exact ⟨Except.ok.inj (hvalues.symm.trans hvalues'),
            Except.ok.inj (hgenerator.symm.trans hgenerator')⟩
  | round _ hround ih =>
      cases h' with
      | round hbefore' hround' =>
          obtain ⟨rfl, rfl⟩ := ih hbefore'
          obtain ⟨rfl, rfl⟩ := Prod.mk.inj (Except.ok.inj (hround.symm.trans hround'))
          exact ⟨rfl, rfl⟩

/-- In a step there is an inbox for each process. -/
theorem Stage.receivers {round : Nat} {values : List R} {inboxes : Inboxes R}
    {phases : List (Phase R)}
    (hstage : Stage experiment seed tolerance round values inboxes phases) :
    inboxes.map (·.1) = processIds experiment.processes := by
  cases hstage with
  | round hnetwork hreached _ hexchange =>
      exact (hreached.faithful hnetwork hexchange).receivers
  | afterRound hnetwork hreached _ hround _ =>
      obtain ⟨_, _, _, _, _, hexchange⟩ := playRound_eq_ok hround
      exact (hreached.faithful hnetwork hexchange).receivers
  | afterStart => exact Inboxes.map_fst_empty _

/-- A finished run has played each step that it came to. -/
theorem exists_step_of_stage {finished : Run R}
    (h : run experiment seed tolerance = .ok finished) {round : Nat} {values : List R}
    {inboxes : Inboxes R} {phases : List (Phase R)}
    (hstage : Stage experiment seed tolerance round values inboxes phases) :
    1 ≤ round ∧ ∃ step, finished.steps[round - 1]? = some step ∧ step.round = round ∧
      step.before = values ∧ step.inboxes = inboxes := by
  have hcount := (length_states_of_run h).1
  -- A round that the run has reached is the one that it has played.
  have hplayed : ∀ {network done values generator}, Network.ofExperiment experiment = .ok network →
      Reached experiment seed tolerance network done values generator → done < experiment.rounds →
      ∃ step next, finished.rounds[done]? = some step ∧ step.before = values ∧
        playRound experiment network tolerance (done + 1) values generator = .ok (step, next) := by
    intro network done values generator hnetwork hreached hmore
    rw [← hcount] at hmore
    obtain ⟨_, _, network', drawn, next, hnetwork', hreached', hround⟩ :=
      exists_playRound_of_run h (List.getElem?_eq_getElem hmore)
    obtain rfl := Except.ok.inj (hnetwork.symm.trans hnetwork')
    obtain ⟨rfl, rfl⟩ := hreached.unique hreached'
    exact ⟨_, next, List.getElem?_eq_getElem hmore, rfl, hround⟩
  cases hstage with
  | round hnetwork hreached hmore hexchange =>
      obtain ⟨step, next, hstep, hbefore, hround⟩ := hplayed hnetwork hreached hmore
      obtain ⟨hnumber, _, _, _, _, hexchange'⟩ := playRound_eq_ok hround
      obtain ⟨rfl, _⟩ := Prod.mk.inj (Except.ok.inj (hexchange.symm.trans hexchange'))
      exact ⟨by omega, step, getElem?_steps_of_rounds h hstep, hnumber, hbefore, rfl⟩
  | @afterRound network done before generator next step hnetwork hreached hlast hround hend =>
      obtain ⟨played, _, hstep, _, hround'⟩ := hplayed hnetwork hreached (by omega)
      obtain ⟨rfl, _⟩ := Prod.mk.inj (Except.ok.inj (hround.symm.trans hround'))
      have hfinal : finished.rounds.getLast? = some step := by
        rw [List.getLast?_eq_getElem?, hcount, ← hlast]
        exact hstep
      obtain ⟨last, hat, hplay⟩ := exists_end_of_run h hend
      obtain ⟨hnumber, hbefore, hinboxes, _⟩ := playEnd_parts hplay
      rw [valuesAfter, hfinal] at hbefore
      rw [lastInboxes, hfinal] at hinboxes
      exact ⟨by omega, last, hat, hnumber, hbefore, hinboxes⟩
  | afterStart hvalues hnone hend =>
      have hempty : finished.rounds = [] := List.length_eq_zero_iff.mp (hcount.trans hnone)
      obtain ⟨_, _, _, _, hstart, _⟩ := exists_playRounds_of_run h
      obtain rfl := Except.ok.inj (hvalues.symm.trans hstart)
      obtain ⟨last, hat, hplay⟩ := exists_end_of_run h hend
      obtain ⟨hnumber, hbefore, hinboxes, _⟩ := playEnd_parts hplay
      rw [hempty] at hbefore hinboxes
      exact ⟨by omega, last, hat, hnumber, hbefore, hinboxes⟩

/-- Where a process evaluates a phase in a finished run, it sees its value and its inbox
as the step shows them. -/
theorem Evaluates.view_eq {finished : Run R} (h : run experiment seed tolerance = .ok finished)
    {k : Nat} {step : Step R} (hstep : finished.steps[k]? = some step) {id : Int}
    {phase : Phase R} {view : View R}
    (hevaluates : Evaluates experiment seed tolerance (k + 1) id phase view) :
    id ∈ processIds experiment.processes ∧ ∃ own current, valueOf step.before id = some own ∧
      view = { experiment.view id own (packed (step.inboxes.get id)) with own := current } := by
  obtain ⟨values, inboxes, phases, own, hstage, hid, hown, hvisit⟩ := hevaluates
  obtain ⟨_, other, hother, _, rfl, rfl⟩ := exists_step_of_stage h hstage
  rw [Nat.add_sub_cancel, hstep] at hother
  obtain rfl := Option.some.inj hother
  obtain ⟨_, current, hview⟩ := exists_own_of_mem_visits hvisit
  exact ⟨hid, own, current, hown, hview⟩

/-- The phases that run in a step. -/
def Step.phases (experiment : Experiment R) (tolerance : R) (step : Step R) : List (Phase R) :=
  if step.isEnd then experiment.endPhases
  else experiment.activePhases (step.round : Int) (isConsensus tolerance step.before)

/-- A step that a run has come to and in which every process has got its next
value. -/
structure Step.Played (experiment : Experiment R) (seed : Int) (tolerance : R) (round : Nat)
    (step : Step R) : Prop where
  number : step.round = round
  stage : Stage experiment seed tolerance round step.before step.inboxes
    (step.phases experiment tolerance)
  values : step.before.length = experiment.processes
  committed : commit experiment round step.inboxes step.before
    (Experiment.runPhases · (step.phases experiment tolerance)) = .ok step.after

/-- A run has come to each of its steps. -/
theorem played_of_run {finished : Run R} (h : run experiment seed tolerance = .ok finished)
    {k : Nat} {step : Step R} (hstep : finished.steps[k]? = some step) :
    step.Played experiment seed tolerance (k + 1) := by
  rcases round_or_end_of_step h hstep with hround | ⟨hend, rfl, hplay⟩
  · obtain ⟨_, _, network, drawn, next, hnetwork, hreached, hplay⟩ :=
      exists_playRound_of_run h hround
    obtain ⟨hnumber, _, hnotEnd, _, _, hexchange⟩ := playRound_eq_ok hplay
    have hmore := (List.getElem?_eq_some_iff.mp hround).choose
    rw [(length_states_of_run h).1] at hmore
    have hphases : step.phases experiment tolerance =
        experiment.activePhases ((k + 1 : Nat) : Int) (isConsensus tolerance step.before) := by
      rw [Step.phases, hnotEnd, hnumber]
      rfl
    refine ⟨hnumber, ?_, hreached.length_eq, ?_⟩
    · rw [hphases]
      exact .round hnetwork hreached hmore hexchange
    · rw [hphases]
      exact (playRound_parts hplay).2
  · obtain ⟨network, generator, hnetwork, hgenerator, hstart, hrounds, _⟩ :=
      exists_playRounds_of_run h
    obtain ⟨hlength, hstage⟩ := stage_of_playRounds hnetwork hgenerator hstart hrounds hend
    obtain ⟨hnumber, hbefore, hinboxes, hisEnd, hcommit⟩ := playEnd_parts hplay
    have hphases : step.phases experiment tolerance = experiment.endPhases := if_pos hisEnd
    rw [← hbefore] at hlength hstage hcommit
    rw [← hinboxes] at hstage hcommit
    refine ⟨hnumber, ?_, hlength, ?_⟩
    · rw [hphases]
      exact hstage
    · rw [hphases]
      exact hcommit

/-- In a step of a run every process evaluates all phases that run there. -/
theorem Step.Played.exists_evaluates {round : Nat} {step : Step R}
    (hplayed : step.Played experiment seed tolerance round) {id : Int}
    (hid : id ∈ processIds experiment.processes) {phase : Phase R}
    (hphase : phase ∈ step.phases experiment tolerance) :
    ∃ view, Evaluates experiment seed tolerance round id phase view := by
  rw [← hplayed.values] at hid
  obtain ⟨own, value, hown, hruns, _⟩ := exists_of_commit hplayed.committed hid
  rw [← map_fst_visits hruns] at hphase
  obtain ⟨⟨_, view⟩, hvisit, rfl⟩ := List.mem_map.mp hphase
  rw [hplayed.values] at hid
  exact ⟨view, _, _, _, own, hplayed.stage, hid, hown, hvisit⟩

end LossyConsensus.Simulation
