/-
# Channel guarantees

A channel guarantee promises every process a number of messages in each round.
Nothing that the delivery models lose is lost to the channel, so without topology
and faults there are enough messages to keep the promise: in every phase that is
evaluated, the phase at the end included, a process has received something, or a
majority of the messages.
-/

import LossyConsensus.Proofs.Scalar.Exact
import LossyConsensus.Proofs.Simulation.Coupling
import LossyConsensus.Proofs.Simulation.Visit

namespace LossyConsensus.Simulation

open LossyConsensus.Network LossyConsensus.Protocol LossyConsensus.Random

variable {R : Type} [Scalar R] {experiment : Experiment R} {seed : Int} {tolerance : R}

/-! ## Inboxes -/

/-- The channel makes up for what is lost as far as there are other processes. -/
theorem le_length_get_of_exchange {network : Network R} {guarantee : Guarantee}
    (hnetwork : Network.ofExperiment experiment = .ok network)
    (htopology : experiment.topology = none)
    (hfaults : experiment.faults = none ∨ experiment.faults = some .none)
    (hchannel : experiment.channel = .guarantee guarantee) {values : List R}
    (hlength : values.length = experiment.processes) {round : Int} {generator next : Generator}
    {inboxes : Inboxes R}
    (hexchange : exchange experiment network values round generator = .ok (inboxes, next))
    {id : Int} (hid : id ∈ processIds experiment.processes) :
    min (need guarantee experiment.processes) (experiment.processes - 1) ≤
      (inboxes.get id).length := by
  obtain ⟨outbound, found, hsent, hfound, _, _, rfl⟩ := exists_of_exchange hexchange
  obtain rfl : guarantee = found := Setting.guarantee.inj (hchannel.symm.trans hfound)
  have hall : (flood values).filter network.connects = flood values :=
    List.filter_eq_self.mpr fun message _ =>
      connects_of_topology_eq_none hnetwork htopology message
  have houtbound : outbound = flood values := by
    rw [sent_eq_of_faultless hfaults, hall] at hsent
    exact (Except.ok.inj hsent).symm
  have hperm := deliver_perm network.assignment experiment.p outbound generator
  rw [length_get_topUp guarantee _ hperm hid, houtbound, ← hlength,
    length_addressedTo_flood (hlength ▸ hid)]
  exact Nat.le_max_right _ _

/-- So it does in every step that a run comes to; the phase at the end sees the
inboxes of the last round. -/
theorem Stage.le_length_get {guarantee : Guarantee} (htopology : experiment.topology = none)
    (hfaults : experiment.faults = none ∨ experiment.faults = some .none)
    (hchannel : experiment.channel = .guarantee guarantee) (hpos : 1 ≤ experiment.rounds)
    {round : Nat} {values : List R} {inboxes : Inboxes R} {phases : List (Phase R)}
    (hstage : Stage experiment seed tolerance round values inboxes phases) {id : Int}
    (hid : id ∈ processIds experiment.processes) :
    min (need guarantee experiment.processes) (experiment.processes - 1) ≤
      (inboxes.get id).length := by
  cases hstage with
  | round hnetwork hreached _ hexchange =>
      exact le_length_get_of_exchange hnetwork htopology hfaults hchannel hreached.length_eq
        hexchange hid
  | afterRound hnetwork hreached _ hround _ =>
      obtain ⟨_, _, _, _, _, hexchange⟩ := playRound_eq_ok hround
      exact le_length_get_of_exchange hnetwork htopology hfaults hchannel hreached.length_eq
        hexchange hid
  | afterStart _ hnone _ => omega

/-! ## Views -/

/-- What a process sees of the channel wherever it evaluates a phase. -/
theorem Evaluates.le_length_inbox {guarantee : Guarantee} (htopology : experiment.topology = none)
    (hfaults : experiment.faults = none ∨ experiment.faults = some .none)
    (hchannel : experiment.channel = .guarantee guarantee) (hpos : 1 ≤ experiment.rounds)
    {round : Nat} {id : Int} {phase : Phase R} {view : View R}
    (h : Evaluates experiment seed tolerance round id phase view) :
    view.hasHalf = true ∧ view.processes = experiment.processes ∧
      min (need guarantee experiment.processes) (experiment.processes - 1) ≤
        view.inbox.length := by
  obtain ⟨values, inboxes, phases, own, hstage, hid, _, hvisit⟩ := h
  obtain ⟨_, current, hview⟩ := exists_own_of_mem_visits hvisit
  dsimp only at hview
  subst hview
  refine ⟨rfl, rfl, ?_⟩
  change _ ≤ (packed (inboxes.get id)).length
  rw [packed, List.length_map]
  exact hstage.le_length_get htopology hfaults hchannel hpos hid

/-- A process that has received something can aggregate it. -/
theorem exists_eval_aggregate {view : View R} (h : view.inbox ≠ []) (how : Aggregation)
    (withOwn : Bool) : ∃ value, (Expr.aggregate how withOwn).eval view = .ok value := by
  have hany : ∀ values : List R, values ≠ [] → ∃ value, how.apply values = .ok value := by
    intro values hne
    cases values with
    | nil => exact absurd rfl hne
    | cons first rest => exact ⟨_, rfl⟩
  refine hany _ ?_
  cases withOwn with
  | true => exact List.cons_ne_nil _ _
  | false => simpa [View.received] using h

/-- Channel guarantees make the predicates that ask for them true.

Take an experiment of at least one round without topology and faults.  If its
channel guarantees one message and there are two processes or more, then whenever a
process evaluates a phase it has received something, so that all it has received can
be aggregated.  If the channel guarantees a majority and there are three processes or
more, then whenever a process evaluates a phase it has received from a majority.

A run that stops for an evaluation other than that of an initial value stops for a
phase that is evaluated there, in the phase at the end as well. -/
theorem guarantees_make_predicates_true (htopology : experiment.topology = none)
    (hfaults : experiment.faults = none ∨ experiment.faults = some .none)
    (hpos : 1 ≤ experiment.rounds) (seed : Int) (tolerance : R) :
    (experiment.channel = .guarantee .atLeastOne → 2 ≤ experiment.processes →
      ∀ round id phase view, Evaluates experiment seed tolerance round id phase view →
        (Predicate.receivedAny : Predicate R).eval view = .ok true ∧
        ∀ how withOwn, ∃ value, (Expr.aggregate how withOwn).eval view = .ok value) ∧
    (experiment.channel = .guarantee .majority → 3 ≤ experiment.processes →
      ∀ round id phase view, Evaluates experiment seed tolerance round id phase view →
        (Predicate.receivedMajority : Predicate R).eval view = .ok true) ∧
    ∀ reason, run experiment seed tolerance = .error (.evaluation reason) →
      (∃ id, experiment.initialValue id = .error reason) ∨
        ∃ round id phase view, Evaluates experiment seed tolerance round id phase view ∧
          phase.rule.eval view = .error reason := by
  refine ⟨?_, ?_, ?_⟩
  · intro hchannel htwo round id phase view h
    obtain ⟨_, _, hlength⟩ := h.le_length_inbox htopology hfaults hchannel hpos
    have hne : view.inbox ≠ [] := by
      rw [← List.length_pos_iff]
      simp only [need] at hlength
      omega
    refine ⟨?_, exists_eval_aggregate hne⟩
    rw [Predicate.eval, List.isEmpty_eq_false_iff.mpr hne]
    rfl
  · intro hchannel hthree round id phase view h
    obtain ⟨hhalf, hprocesses, hlength⟩ := h.le_length_inbox htopology hfaults hchannel hpos
    have hmajority : view.processes < 2 * view.inbox.length := by
      simp only [need] at hlength
      omega
    rw [Predicate.eval, if_pos hhalf, decide_eq_true hmajority]
  · intro reason h
    rcases failsAt_of_run h with h | h
    · exact .inl h
    · exact .inr h.exists_evaluates

/-- Three processes between which everything is lost.  In the round each of them takes
the greatest value that it has received, and at the end the average of all it knows. -/
def quietTrio : Experiment ℚ where
  name := "quiet trio"
  processes := 3
  rounds := 1
  p := 0
  phases := [{ kind := .eachRound, rule := .assign (.plain "x") (.aggregate .max false) },
    { kind := .atEnd, rule := .onlyIf .receivedMajority (.combine .average) }]
  leader := none
  parameters := []
  initial := .values [1, 2, 3]
  models := [{ kind := .broadcast }]
  channel := .guarantee .majority
  topology := none
  faults := none

/-- The third process of the quiet trio hears a majority at the end.  With one message
guaranteed the first one hears someone in the round; and a trio whose rule divides by
zero stops for that rule. -/
theorem quietTrio_guarantees_make_predicates_true :
    (∃ phase view, Evaluates quietTrio 5 0 2 3 phase view ∧
      (Predicate.receivedMajority : Predicate ℚ).eval view = .ok true) ∧
    (∃ phase view,
      Evaluates { quietTrio with channel := .guarantee .atLeastOne } 5 0 1 1 phase view ∧
      (Predicate.receivedAny : Predicate ℚ).eval view = .ok true ∧
      ∀ how withOwn, ∃ value, (Expr.aggregate how withOwn).eval view = .ok value) ∧
    ∃ experiment : Experiment ℚ,
      run experiment 5 0 = .error (.evaluation .divisionByZero) ∧
      ((∃ id, experiment.initialValue id = .error .divisionByZero) ∨
        ∃ round id phase view, Evaluates experiment 5 0 round id phase view ∧
          phase.rule.eval view = .error .divisionByZero) := by
  have hplays : (run quietTrio 5 0).map (fun finished => finished.steps[1]?.map (·.isEnd)) =
      .ok (some true) := by decide +kernel
  let chorus : Experiment ℚ := { quietTrio with channel := .guarantee .atLeastOne }
  have hplays' : (run chorus 5 0).map (fun finished => finished.steps[0]?.map (·.isEnd)) =
      .ok (some false) := by decide +kernel
  let divider : Experiment ℚ := { quietTrio with
    phases := [{ kind := .atEnd, rule := .assign (.plain "x") (.binary .div .own (.literal 0)) }] }
  have hstops : (run divider 5 0).map (fun _ => ()) = .error (.evaluation .divisionByZero) := by
    decide +kernel
  refine ⟨?_, ?_, divider, map_eq_error.mp hstops, ?_⟩
  · obtain ⟨finished, hrun, hsteps⟩ := map_eq_ok.mp hplays
    obtain ⟨last, hlast, hisEnd⟩ := Option.map_eq_some_iff.mp hsteps
    have hphase : quietTrio.phases[1] ∈ last.phases quietTrio 0 := by
      rw [Step.phases, if_pos hisEnd]
      exact List.mem_singleton_self _
    have hid : (3 : Int) ∈ processIds 3 := by decide
    obtain ⟨view, hview⟩ := (played_of_run hrun hlast).exists_evaluates hid hphase
    exact ⟨_, view, hview, (guarantees_make_predicates_true rfl (.inl rfl) (by decide) 5 0).2.1 rfl
      (by decide) 2 3 _ view hview⟩
  · obtain ⟨finished, hrun, hsteps⟩ := map_eq_ok.mp hplays'
    obtain ⟨first, hfirst, hisEnd⟩ := Option.map_eq_some_iff.mp hsteps
    have hphase : quietTrio.phases[0] ∈ first.phases chorus 0 := by
      rw [Step.phases, hisEnd]
      exact List.mem_singleton_self _
    have hid : (1 : Int) ∈ processIds 3 := by decide
    obtain ⟨view, hview⟩ := (played_of_run hrun hfirst).exists_evaluates hid hphase
    exact ⟨_, view, hview, (guarantees_make_predicates_true rfl (.inl rfl) (by decide) 5 0).1 rfl
      (by decide) 1 1 _ view hview⟩
  · exact (guarantees_make_predicates_true rfl (.inl rfl) (by decide) 5 0).2.2 _
      (map_eq_error.mp hstops)

end LossyConsensus.Simulation
