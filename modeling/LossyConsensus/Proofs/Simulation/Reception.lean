/-
# Predicates in runs

Whatever topology, faults, delivery models and channel a run has, its inboxes hold at
most one message from each other process.  So wherever a process evaluates a phase, the
predicates that ask what it has received agree: there is no difference between having
received a message from everyone and having received as many messages as there are
others.
-/

import LossyConsensus.Proofs.Protocol.Reception
import LossyConsensus.Proofs.Scalar.Exact
import LossyConsensus.Proofs.Simulation.Visit

namespace LossyConsensus.Simulation

open LossyConsensus.Network LossyConsensus.Protocol

variable {R : Type} [Scalar R] {experiment : Experiment R} {seed : Int} {tolerance : R}

/-- In each step that a run comes to, a process finds at most one message from each other
one. -/
theorem Stage.senders {round : Nat} {values : List R} {inboxes : Inboxes R}
    {phases : List (Phase R)}
    (hstage : Stage experiment seed tolerance round values inboxes phases) (id : Int) :
    ((inboxes.get id).map (·.sender)).Nodup ∧
      ∀ message ∈ inboxes.get id,
        message.sender ∈ processIds experiment.processes ∧ message.sender ≠ id := by
  have hfilled : ∀ {values : List R} {round : Int} {inboxes : Inboxes R},
      Faithful experiment values round inboxes →
      ((inboxes.get id).map (·.sender)).Nodup ∧
        ∀ message ∈ inboxes.get id,
          message.sender ∈ processIds experiment.processes ∧ message.sender ≠ id :=
    fun hfaithful => ⟨hfaithful.oneEach id, fun message hmessage =>
      ⟨(hfaithful.arrives id message hmessage).sender, hfaithful.notOwn id message hmessage⟩⟩
  cases hstage with
  | round hnetwork hreached _ hexchange =>
      exact hfilled (hreached.faithful hnetwork hexchange)
  | afterRound hnetwork hreached _ hround _ =>
      obtain ⟨_, _, _, _, _, hexchange⟩ := playRound_eq_ok hround
      exact hfilled (hreached.faithful hnetwork hexchange)
  | afterStart =>
      rw [Inboxes.get_empty]
      exact ⟨List.nodup_nil, fun _ hmessage => (List.not_mem_nil hmessage).elim⟩

/-- Wherever a process evaluates a phase, its view is in order. -/
theorem Evaluates.orderly {round : Nat} {id : Int} {phase : Phase R} {view : View R}
    (h : Evaluates experiment seed tolerance round id phase view) :
    view.id = id ∧ view.Orderly experiment.processes := by
  obtain ⟨values, inboxes, phases, own, hstage, hid, _, hvisit⟩ := h
  obtain ⟨_, current, hview⟩ := exists_own_of_mem_visits hvisit
  dsimp only at hview
  subst hview
  obtain ⟨hone, hothers⟩ := hstage.senders id
  have hsenders : (packed (inboxes.get id)).map (·.1) = (inboxes.get id).map (·.sender) := by
    rw [packed, List.map_map]
    rfl
  refine ⟨rfl, rfl, rfl, hid, ?_, ?_⟩
  · rw [View.senders]
    exact hsenders ▸ hone
  · intro sender hsender
    rw [View.senders] at hsender
    obtain ⟨message, hmessage, rfl⟩ := List.mem_map.mp (hsenders ▸ hsender)
    exact hothers message hmessage

/-- Wherever a process evaluates a phase in a run, the predicates about what it has
received agree with each other and with the expressions that use it. -/
theorem predicates_agree_wherever_evaluated {round : Nat} {id : Int} {phase : Phase R}
    {view : View R} (h : Evaluates experiment seed tolerance round id phase view) :
    view.id = id ∧ view.Coherent experiment.processes := by
  obtain ⟨hid, horderly⟩ := h.orderly
  exact ⟨hid, horderly.coherent⟩

/-- Two processes on a ring that disagree and adopt what differs from their own values,
while the second one lies about its value. -/
def adoptingPair : Experiment ℚ where
  name := "adopting pair"
  processes := 2
  rounds := 1
  p := 1
  phases := [{
    kind := .eachRound
    rule := .onlyIf (.receivedDiff "x") (.assign (.plain "x") .other) }]
  leader := none
  parameters := []
  initial := .values [3, 4]
  models := []
  channel := .guarantee .none
  topology := some .ring
  faults := some (.byzantine [2] .opposite)

/-- The first process of the pair receives the lie, which is all there is to receive and
the value that it can use. -/
theorem adoptingPair_predicates_agree :
    ∃ phase view, Evaluates adoptingPair 5 0 1 1 phase view ∧ view.inbox = [(2, -4)] ∧
      (view.id = 1 ∧ view.Coherent 2) ∧
      (Predicate.receivedAll : Predicate ℚ).eval view = .ok true ∧
      (Predicate.receivedDiff "x" : Predicate ℚ).eval view = .ok true ∧
      (Expr.other : Expr ℚ).eval view = .ok (-4) := by
  have hplays : (run adoptingPair 5 0).map (fun finished => finished.steps[0]?.map fun step =>
      (step.isEnd, step.before, packed (step.inboxes.get 1))) =
      .ok (some (false, [(3 : ℚ), 4], [((2 : Int), (-4 : ℚ))])) := by decide +kernel
  obtain ⟨finished, hrun, hsteps⟩ := map_eq_ok.mp hplays
  obtain ⟨first, hfirst, hshows⟩ := Option.map_eq_some_iff.mp hsteps
  obtain ⟨hisEnd, hshows⟩ := Prod.mk.inj hshows
  obtain ⟨hbefore, hinbox⟩ := Prod.mk.inj hshows
  have hphase : adoptingPair.phases[0] ∈ first.phases adoptingPair 0 := by
    rw [Step.phases, hisEnd]
    exact List.mem_singleton_self _
  have hid : (1 : Int) ∈ processIds 2 := by decide
  obtain ⟨view, hview⟩ := (played_of_run hrun hfirst).exists_evaluates hid hphase
  have hagree := predicates_agree_wherever_evaluated hview
  obtain ⟨_, own, current, hown, rfl⟩ := hview.view_eq hrun hfirst
  rw [hbefore] at hown
  obtain rfl : 3 = own := Option.some.inj hown
  refine ⟨_, _, hview, hinbox, hagree, ?_, ?_, ?_⟩
  · rw [hinbox]
    rfl
  · rw [hinbox]
    rfl
  · rw [hinbox]
    rfl

end LossyConsensus.Simulation
