/-
# Runs that share their channel

Two runs whose experiments agree in everything that concerns messages, whatever
their rules, parameters and initial values are, take the same draws in every
round: what is drawn depends on the slots of a round, and these do not depend on
values.  So a run with a greater probability fills every slot that the other one
fills, round by round, and it meets every demand that the other one meets.
-/

import LossyConsensus.Proofs.Network.Demand
import LossyConsensus.Proofs.Network.Slot
import LossyConsensus.Proofs.Simulation.Run
import Mathlib.Algebra.Order.BigOperators.Group.List

namespace LossyConsensus.Simulation

open LossyConsensus.Network LossyConsensus.Protocol LossyConsensus.Random

variable {R : Type} [Scalar R]

/-- Two experiments that agree in everything that concerns messages but the
probability. -/
structure SameChannel (first second : Experiment R) : Prop where
  processes : first.processes = second.processes
  rounds : first.rounds = second.rounds
  models : first.models = second.models
  channel : first.channel = second.channel
  topology : first.topology = second.topology
  faults : first.faults = second.faults

/-- The slots that the delivery models fill in a round, before the channel makes
up for any. -/
def arriving (experiment : Experiment R) (network : Network R) (values : List R) (round : Int)
    (generator : Generator) : Except (RunError R) (List (Int × Int)) := do
  let outbound ← sent experiment network values round
  return (deliver network.assignment experiment.p outbound generator).1.delivered.map Message.ends

/-- A round of one run beside the same round of another one.  Both begin and end
with the same generator, the first fills no slot that the second does not fill,
and as many messages or fewer are in its inboxes. -/
structure CoupledRound (first second : Experiment R) (network : Network R) (round : Int)
    (generator next : Generator) (step step' : Step R) (slots slots' : List (Int × Int)) :
    Prop where
  exchanged : exchange first network step.before round generator = .ok (step.inboxes, next)
  exchanged' : exchange second network step'.before round generator = .ok (step'.inboxes, next)
  filled : arriving first network step.before round generator = .ok slots
  filled' : arriving second network step'.before round generator = .ok slots'
  fewer : slots.Sublist slots'
  same : Scalar.le second.p first.p = true → slots = slots'
  delivered : step.delivered ≤ step'.delivered

/-- A finished run beside another one from the same seed, round by round. -/
structure CoupledRuns (first second : Experiment R) (seed : Int) (tolerance tolerance' : R)
    (finished finished' : Run R) : Prop where
  length : finished.rounds.length = finished'.rounds.length
  rounds : ∃ network, Network.ofExperiment first = .ok network ∧
    Network.ofExperiment second = .ok network ∧
    ∀ k step step', finished.rounds[k]? = some step → finished'.rounds[k]? = some step' →
      ∃ generator next slots slots',
        Reached first seed tolerance network k step.before generator ∧
        Reached second seed tolerance' network k step'.before generator ∧
        CoupledRound first second network ((k + 1 : Nat) : Int) generator next step step'
          slots slots'
  perRound : List.Forall₂ (· ≤ ·) (finished.summary tolerance).deliveredPerRound
    (finished'.summary tolerance').deliveredPerRound
  total : (finished.summary tolerance).totalDelivered ≤
    (finished'.summary tolerance').totalDelivered
  demands : ∀ model : Model,
    model.isSatisfied ((finished.summary tolerance).deliveredPerRound.map Int.ofNat)
        (finished.summary tolerance).totalDelivered = true →
      model.isSatisfied ((finished'.summary tolerance').deliveredPerRound.map Int.ofNat)
        (finished'.summary tolerance').totalDelivered = true

/-! ## Demands -/

omit [Scalar R] in
/-- More messages in every round meet whatever fewer ones meet. -/
theorem isSatisfied_mono {few many : List Nat} (h : List.Forall₂ (· ≤ ·) few many) {model : Model}
    (hmet : model.isSatisfied (few.map Int.ofNat) few.sum = true) :
    model.isSatisfied (many.map Int.ofNat) many.sum = true := by
  cases model with
  | standard => rfl
  | broadcast mode => rfl
  | guaranteed count scope =>
      cases scope with
      | total =>
          have hsum : few.sum ≤ many.sum := h.sum_le_sum
          simp only [Model.isSatisfied, decide_eq_true_eq] at hmet ⊢
          omega
      | perRound =>
          simp only [Model.isSatisfied, List.all_map] at hmet ⊢
          induction h with
          | nil => rfl
          | cons hle _ ih =>
              simp only [List.all_cons, Bool.and_eq_true, Function.comp_apply,
                decide_eq_true_eq] at hmet ⊢
              refine ⟨?_, ih hmet.2⟩
              have := hmet.1
              simp only [Int.ofNat_eq_natCast] at this ⊢
              omega

variable {first second : Experiment R} {network : Network R}

/-! ## One round -/

omit [Scalar R] in
/-- Changing the probability leaves the channel as it is. -/
theorem sameChannel_withProbability (experiment : Experiment R) (p : R) :
    SameChannel experiment { experiment with p } :=
  ⟨rfl, rfl, rfl, rfl, rfl, rfl⟩

theorem SameChannel.ofExperiment_eq (hsame : SameChannel first second) :
    Network.ofExperiment first = Network.ofExperiment second := by
  rw [Network.ofExperiment, Network.ofExperiment, hsame.processes, hsame.models, hsame.topology]

/-- The network connects the same slots of two floods. -/
theorem map_ends_connected_eq (network : Network R) {values values' : List R}
    (hlength : values.length = values'.length) :
    ((flood values).filter network.connects).map Message.ends =
      ((flood values').filter network.connects).map Message.ends := by
  have hchoose := map_ends_filter (R := R) fun ends =>
    network.connects { sender := ends.1, receiver := ends.2, payload := Scalar.zero }
  exact (hchoose _).trans (map_ends_flood_eq hlength ▸ (hchoose _).symm)

/-- Topology and faults leave the same slots of two floods. -/
theorem SameChannel.map_ends_sent_eq (hsame : SameChannel first second)
    {values values' : List R} (hlength : values.length = values'.length) {round : Int}
    {outbound outbound' : List (Message R)}
    (hsent : sent first network values round = .ok outbound)
    (hsent' : sent second network values' round = .ok outbound') :
    outbound.map Message.ends = outbound'.map Message.ends := by
  have hconnects := map_ends_connected_eq network hlength
  rw [sent_eq_ok] at hsent
  rw [sent_eq_ok, ← hsame.faults] at hsent'
  rcases hsent with ⟨hnone, rfl⟩ | ⟨fault, hsome, hleft⟩
  · rcases hsent' with ⟨_, rfl⟩ | ⟨fault, hsome, _⟩
    · exact hconnects
    · rw [hnone] at hsome
      cases hsome
  · rcases hsent' with ⟨hnone, _⟩ | ⟨fault', hsome', hleft'⟩
    · rw [hnone] at hsome
      cases hsome
    · obtain rfl := Option.some.inj (hsome.symm.trans hsome')
      exact Fault.map_ends_apply_eq hconnects hleft hleft'

/-- Where faults have an answer for the one flood, they have one for the other. -/
theorem SameChannel.exists_sent (hsame : SameChannel first second)
    {values values' : List R} (hlength : values.length = values'.length) {round : Int}
    {outbound : List (Message R)} (hsent : sent first network values round = .ok outbound) :
    ∃ outbound', sent second network values' round = .ok outbound' := by
  rcases sent_eq_ok.mp hsent with ⟨hnone, _⟩ | ⟨fault, hsome, hleft⟩
  · exact ⟨_, sent_eq_ok.mpr (.inl ⟨hsame.faults ▸ hnone, rfl⟩)⟩
  · obtain ⟨left, hleft'⟩ := Fault.exists_apply (map_ends_connected_eq network hlength) hleft
    exact ⟨left, sent_eq_ok.mpr (.inr ⟨fault, hsame.faults ▸ hsome, hleft'⟩)⟩

/-- Where the one exchange succeeds, so does the other, whatever is drawn. -/
theorem SameChannel.exists_exchange (hsame : SameChannel first second)
    {values values' : List R} (hlength : values.length = values'.length) {round : Int}
    {generator next : Generator} {inboxes : Inboxes R}
    (h : exchange first network values round generator = .ok (inboxes, next))
    (generator' : Generator) :
    ∃ inboxes' next', exchange second network values' round generator' =
      .ok (inboxes', next') := by
  obtain ⟨outbound, guarantee, hsent, hchannel, _⟩ := exchange_eq_ok.mp h
  obtain ⟨outbound', hsent'⟩ := hsame.exists_sent hlength hsent
  exact ⟨_, _, exchange_eq_ok.mpr
    ⟨outbound', guarantee, hsent', hsame.channel ▸ hchannel, rfl, rfl⟩⟩

/-- An exchange beside the slots that its delivery fills. -/
theorem exists_of_exchange {experiment : Experiment R} {values : List R} {round : Int}
    {generator next : Generator} {inboxes : Inboxes R}
    (h : exchange experiment network values round generator = .ok (inboxes, next)) :
    ∃ outbound guarantee, sent experiment network values round = .ok outbound ∧
      experiment.channel = .guarantee guarantee ∧
      next = (deliver network.assignment experiment.p outbound generator).2 ∧
      arriving experiment network values round generator =
        .ok ((deliver network.assignment experiment.p outbound generator).1.delivered.map
          Message.ends) ∧
      inboxes = (topUp guarantee experiment.processes
        (Inboxes.ofDelivered experiment.processes
          (deliver network.assignment experiment.p outbound generator).1.delivered)
        (deliver network.assignment experiment.p outbound generator).1.undelivered).1 := by
  obtain ⟨outbound, guarantee, hsent, hchannel, hnext, hinboxes⟩ := exchange_eq_ok.mp h
  refine ⟨outbound, guarantee, hsent, hchannel, hnext.symm, ?_, hinboxes.symm⟩
  exact bind_eq_ok.mpr ⟨outbound, hsent, rfl⟩

variable [LawfulScalar R]

/-- The exchanges of one round in two runs: the generators stay equal, no slot is
lost at a greater probability, and no fewer messages arrive in the end. -/
theorem SameChannel.exchange_coupled (hsame : SameChannel first second)
    (hp : Scalar.le first.p second.p = true) (hnetwork : Network.ofExperiment first = .ok network)
    {values values' : List R} (hlength : values.length = first.processes)
    (hlength' : values'.length = second.processes) {round : Int}
    {generator next next' : Generator} {inboxes inboxes' : Inboxes R}
    (h : exchange first network values round generator = .ok (inboxes, next))
    (h' : exchange second network values' round generator = .ok (inboxes', next')) :
    next = next' ∧ inboxes.size ≤ inboxes'.size ∧ ∃ slots slots',
      arriving first network values round generator = .ok slots ∧
      arriving second network values' round generator = .ok slots' ∧
      slots.Sublist slots' ∧ (Scalar.le second.p first.p = true → slots = slots') := by
  have hfaithful := faithful_of_exchange hnetwork hlength h
  have hfaithful' := faithful_of_exchange (hsame.ofExperiment_eq ▸ hnetwork) hlength' h'
  obtain ⟨outbound, guarantee, hsent, hchannel, rfl, harriving, hinboxes⟩ := exists_of_exchange h
  obtain ⟨outbound', guarantee', hsent', hchannel', rfl, harriving', hinboxes'⟩ :=
    exists_of_exchange h'
  obtain rfl : guarantee = guarantee' :=
    Setting.guarantee.inj (hchannel.symm.trans (hsame.channel.trans hchannel'))
  have hends := hsame.map_ends_sent_eq
    (hlength.trans (hsame.processes.trans hlength'.symm)) hsent hsent'
  obtain ⟨hnext, hfewer⟩ := deliver_coupled network.assignment hp hends generator
  refine ⟨hnext, ?_, _, _, harriving, harriving', hfewer, ?_⟩
  · rw [hfaithful.size_eq_sum, hfaithful'.size_eq_sum, ← hsame.processes]
    refine List.sum_le_sum fun id hid => ?_
    have hsent := length_get_topUp guarantee
      (deliver network.assignment first.p outbound generator).1 (deliver_perm _ _ _ _) hid
    have hsent' := length_get_topUp guarantee
      (deliver network.assignment second.p outbound' generator).1 (deliver_perm _ _ _ _) hid
    have harrived : (addressedTo id
          (deliver network.assignment first.p outbound generator).1.delivered).length ≤
        (addressedTo id
          (deliver network.assignment second.p outbound' generator).1.delivered).length := by
      rw [length_addressedTo, length_addressedTo]
      exact (hfewer.filter _).length_le
    rw [hinboxes, hsent, hinboxes', ← hsame.processes, hsent', length_addressedTo id outbound,
      hends, ← length_addressedTo]
    omega
  · intro hback
    exact hfewer.antisymm (deliver_coupled network.assignment hback hends.symm generator).2

/-! ## Whole runs -/

/-- Two runs have the same generator after equally many rounds. -/
theorem SameChannel.generator_eq (hsame : SameChannel first second)
    (hp : Scalar.le first.p second.p = true) (hnetwork : Network.ofExperiment first = .ok network)
    {seed : Int} {tolerance tolerance' : R} {done : Nat} {values values' : List R}
    {generator generator' : Generator}
    (hreached : Reached first seed tolerance network done values generator)
    (hreached' : Reached second seed tolerance' network done values' generator') :
    generator = generator' := by
  induction hreached generalizing values' generator' with
  | start hgenerator _ =>
      cases hreached' with
      | start hgenerator' _ => exact Except.ok.inj (hgenerator.symm.trans hgenerator')
  | round hbefore hround ih =>
      cases hreached' with
      | round hbefore' hround' =>
          obtain rfl := ih hbefore'
          obtain ⟨_, _, _, _, _, hexchange⟩ := playRound_eq_ok hround
          obtain ⟨_, _, _, _, _, hexchange'⟩ := playRound_eq_ok hround'
          exact (hsame.exchange_coupled hp hnetwork hbefore.length_eq hbefore'.length_eq
            hexchange hexchange').1

/-- Two finished runs from one seed, whose experiments share their channel: the
one with the greater probability fills every slot of the other one. -/
theorem SameChannel.coupledRuns (hsame : SameChannel first second)
    (hp : Scalar.le first.p second.p = true) {seed : Int} {tolerance tolerance' : R}
    {finished finished' : Run R} (hrun : run first seed tolerance = .ok finished)
    (hrun' : run second seed tolerance' = .ok finished') :
    CoupledRuns first second seed tolerance tolerance' finished finished' := by
  obtain ⟨network, start, hnetwork, hstart, hvalues, hrounds, _⟩ := exists_playRounds_of_run hrun
  obtain ⟨network', start', hnetwork', hstart', hvalues', hrounds', _⟩ :=
    exists_playRounds_of_run hrun'
  obtain rfl : network = network' := by
    rw [hsame.ofExperiment_eq] at hnetwork
    exact Except.ok.inj (hnetwork.symm.trans hnetwork')
  have hreached : Reached first seed tolerance network 0 finished.start start :=
    .start hstart hvalues
  have hreached' : Reached second seed tolerance' network 0 finished'.start start' :=
    .start hstart' hvalues'
  obtain ⟨hlength, hsteps⟩ := reached_of_playRounds hreached hrounds
  obtain ⟨hlength', hsteps'⟩ := reached_of_playRounds hreached' hrounds'
  have hequal : finished.rounds.length = finished'.rounds.length := by
    rw [hlength, hlength', hsame.rounds]
  have hcoupled : ∀ k step step', finished.rounds[k]? = some step →
      finished'.rounds[k]? = some step' → ∃ generator next slots slots',
        Reached first seed tolerance network k step.before generator ∧
        Reached second seed tolerance' network k step'.before generator ∧
        CoupledRound first second network ((k + 1 : Nat) : Int) generator next step step'
          slots slots' := by
    intro k step step' hstep hstep'
    obtain ⟨_, drawn, next, hat, hround⟩ := hsteps k step hstep
    obtain ⟨_, drawn', next', hat', hround'⟩ := hsteps' k step' hstep'
    rw [Nat.zero_add] at hat hround hat' hround'
    obtain rfl := hsame.generator_eq hp hnetwork hat hat'
    obtain ⟨_, _, _, hdelivered, _, hexchange⟩ := playRound_eq_ok hround
    obtain ⟨_, _, _, hdelivered', _, hexchange'⟩ := playRound_eq_ok hround'
    obtain ⟨rfl, hsize, slots, slots', harriving, harriving', hfewer, hback⟩ :=
      hsame.exchange_coupled hp hnetwork hat.length_eq hat'.length_eq hexchange hexchange'
    exact ⟨drawn, next, slots, slots', hat, hat', hexchange, hexchange', harriving, harriving',
      hfewer, hback, by rw [hdelivered, hdelivered']; exact hsize⟩
  have hperRound : List.Forall₂ (· ≤ ·) (finished.summary tolerance).deliveredPerRound
      (finished'.summary tolerance').deliveredPerRound := by
    rw [Run.summary, Run.summary, List.forall₂_map_left_iff, List.forall₂_map_right_iff]
    refine List.forall₂_iff_get.mpr ⟨hequal, ?_⟩
    intro k hk hk'
    obtain ⟨_, _, _, _, _, _, hround⟩ := hcoupled k _ _ (List.getElem?_eq_getElem hk)
      (List.getElem?_eq_getElem hk')
    exact hround.delivered
  exact ⟨hequal, ⟨network, hnetwork, hnetwork', hcoupled⟩, hperRound, hperRound.sum_le_sum,
    fun model hmet => isSatisfied_mono hperRound hmet⟩

end LossyConsensus.Simulation
