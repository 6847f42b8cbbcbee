/-
# More delivery never hurts a flood

Two runs of a flooding experiment from one seed, at a probability and at one that is
no smaller.  Whoever holds the extreme of the initial values keeps it in both runs.
What a process receives in the first run it receives from the same processes in the
second one, and from more of them, so that its value there lies at least as far out.
Hence the values of the second run lie no further apart, round by round.
-/

import LossyConsensus.Proofs.Simulation.Contraction
import LossyConsensus.Proofs.Simulation.Coupling
import LossyConsensus.Proofs.Simulation.Summary

namespace LossyConsensus.Simulation

open LossyConsensus.Network LossyConsensus.Protocol LossyConsensus.Random

/-- An experiment that floods an extreme value over any network and any topology: the
channel makes up for nothing, and the faults take messages of processes away but
change none of them. -/
structure Experiment.Spreads {R : Type} [Scalar R] (extreme : Extreme)
    (experiment : Experiment R) : Prop where
  takes : experiment.TakesExtreme extreme
  channel : experiment.channel = .guarantee .none
  drops : ∀ fault, experiment.faults = some fault → ∀ (message changed : Message R) (round : Int),
    message.sender ∈ processIds experiment.processes →
      fault.transform message round = .ok (some changed) → changed = message

theorem Experiment.Spreads.withProbability {R : Type} [Scalar R] {extreme : Extreme}
    {experiment : Experiment R} (hspreads : experiment.Spreads extreme) (p : R) :
    Experiment.Spreads extreme { experiment with p } :=
  ⟨hspreads.takes, hspreads.channel, hspreads.drops⟩

/-- Each value lies at least as far out as the one of the same process beside it. -/
def Ahead (extreme : Extreme) (values values' : List ℚ) : Prop :=
  ∀ id ∈ processIds values.length, ∀ own own', valueOf values id = some own →
    valueOf values' id = some own' → extreme.bounds own' own = true

variable {extreme : Extreme} {experiment first second : Experiment ℚ} {network : Network ℚ}
  {seed : Int} {tolerance tolerance' : ℚ}

/-! ## Runs that end -/

/-- A round that can be played can be played by a flood from any values and any
generator. -/
theorem SameChannel.exists_playRound (hsame : SameChannel first second)
    (htakes : second.TakesExtreme extreme) {round : Nat} {values values' : List ℚ}
    (hlength : values.length = values'.length) {generator next : Generator} {step : Step ℚ}
    (h : playRound first network tolerance round values generator = .ok (step, next))
    (generator' : Generator) :
    ∃ step' next', playRound second network tolerance' round values' generator' =
      .ok (step', next') := by
  obtain ⟨_, _, _, _, _, hexchange⟩ := playRound_eq_ok h
  obtain ⟨inboxes', next', hexchange'⟩ := hsame.exists_exchange hlength hexchange generator'
  have hcommit := htakes.commit_eq round inboxes' values' (isConsensus tolerance' values')
  exact ⟨_, next', bind_eq_ok.mpr ⟨_, hexchange', bind_eq_ok.mpr ⟨_, hcommit, rfl⟩⟩⟩

theorem SameChannel.exists_playRounds (hsame : SameChannel first second)
    (htakes : second.TakesExtreme extreme) {count round : Nat} {values values' : List ℚ}
    (hlength : values.length = values'.length) {generator : Generator} {steps : List (Step ℚ)}
    (h : playRounds first network tolerance count round values generator = .ok steps)
    (generator' : Generator) :
    ∃ steps', playRounds second network tolerance' count round values' generator' =
      .ok steps' := by
  induction count generalizing round values values' generator generator' steps with
  | zero => exact ⟨[], rfl⟩
  | succ count ih =>
      obtain ⟨step, next, rest, hround, hrest, _⟩ := exists_of_playRounds h
      obtain ⟨step', next', hround'⟩ := hsame.exists_playRound htakes hlength hround generator'
      obtain ⟨_, _, _, _, hafter, _⟩ := playRound_eq_ok hround
      obtain ⟨_, _, _, _, hafter', _⟩ := playRound_eq_ok hround'
      obtain ⟨rest', hrest'⟩ := ih (hafter.trans (hlength.trans hafter'.symm)) hrest next'
      exact ⟨_, bind_eq_ok.mpr ⟨_, hround', bind_eq_ok.mpr ⟨rest', hrest', rfl⟩⟩⟩

/-- A flood that runs to its end at one probability does so at every other one. -/
theorem Experiment.TakesExtreme.exists_run (htakes : experiment.TakesExtreme extreme) (p : ℚ)
    (h : ∃ finished, run experiment seed tolerance = .ok finished) (tolerance' : ℚ) :
    ∃ finished', run { experiment with p } seed tolerance' = .ok finished' := by
  obtain ⟨finished, hrun⟩ := h
  obtain ⟨network, generator, hnetwork, hgenerator, hstart, hrounds, _⟩ :=
    exists_playRounds_of_run hrun
  have hsame := sameChannel_withProbability experiment p
  have htakes' : Experiment.TakesExtreme extreme { experiment with p } := htakes
  obtain ⟨steps', hrounds'⟩ : ∃ steps', playRounds { experiment with p } network tolerance'
      experiment.rounds 1 finished.start generator = .ok steps' :=
    hsame.exists_playRounds htakes' rfl hrounds generator
  refine ⟨⟨finished.start, steps'⟩, bind_eq_ok.mpr ⟨generator, mapError_eq_ok.mpr hgenerator, ?_⟩⟩
  refine bind_eq_ok.mpr ⟨network, hnetwork, bind_eq_ok.mpr ⟨finished.start, hstart, ?_⟩⟩
  refine bind_eq_ok.mpr ⟨steps', hrounds', ?_⟩
  rw [htakes'.hasEnd_eq]
  rfl

/-! ## One round of one run -/

/-- A round of a flood: what a process receives are values from before the round, and
it takes the extreme of its own value and of these. -/
structure Step.Floods (extreme : Extreme) (step : Step ℚ) : Prop where
  length : step.after.length = step.before.length
  received : ∀ id, ∀ message ∈ step.inboxes.get id,
    message.sender ∈ processIds step.before.length ∧
      valueOf step.before message.sender = some message.payload
  after : ∀ id ∈ processIds step.before.length, ∃ own, valueOf step.before id = some own ∧
    valueOf step.after id = some (extreme.pick own ((step.inboxes.get id).map (·.payload)))

/-- Messages that no fault has changed carry the values of their senders. -/
theorem Experiment.Spreads.valueOf_sender (hspreads : experiment.Spreads extreme)
    {values : List ℚ} {round : Int} {inboxes : Inboxes ℚ}
    (hfaithful : Faithful experiment values round inboxes) {id : Int} {message : Message ℚ}
    (hmem : message ∈ inboxes.get id) : valueOf values message.sender = some message.payload := by
  have harrives := hfaithful.arrives id message hmem
  obtain ⟨value, hvalue, _, hclean, hfaulty⟩ := harrives.origin
  have hpayload : message.payload = value := by
    cases hfaults : experiment.faults with
    | none => exact hclean hfaults
    | some fault =>
        have hkept := hspreads.drops fault hfaults ⟨message.sender, id, value⟩ message round
          harrives.sender (hfaulty fault hfaults)
        exact congrArg Message.payload hkept
  rw [hpayload]
  exact hvalue

/-- The rounds of a run are rounds of a flood. -/
theorem Experiment.Spreads.floods (hspreads : experiment.Spreads extreme) {finished : Run ℚ}
    (hrun : run experiment seed tolerance = .ok finished) {k : Nat} {step : Step ℚ}
    (hstep : finished.rounds[k]? = some step) : step.Floods extreme := by
  obtain ⟨_, _, network, generator, next, hnetwork, hreached, hround⟩ :=
    exists_playRound_of_run hrun hstep
  obtain ⟨_, _, _, _, hlength, hexchange⟩ := playRound_eq_ok hround
  have hfaithful := hreached.faithful hnetwork hexchange
  refine ⟨hlength, ?_, ?_⟩
  · intro id message hmem
    rw [hreached.length_eq]
    exact ⟨(hfaithful.arrives id message hmem).sender, hspreads.valueOf_sender hfaithful hmem⟩
  · intro id hid
    obtain ⟨own, value, hown, hvalue, hafter⟩ := exists_of_commit (playRound_parts hround).2 hid
    rw [hspreads.takes.apply_eq] at hvalue
    obtain rfl := Except.ok.inj hvalue
    refine ⟨own, hown, hafter.trans ?_⟩
    exact congrArg (fun received => some (extreme.pick own received)) List.map_map

/-- The extreme value is kept by whoever holds it, and nothing beyond it arises. -/
theorem Step.Floods.attained {step : Step ℚ} (hfloods : step.Floods extreme) {top : ℚ}
    (hattained : extreme.Attained step.before top) : extreme.Attained step.after top := by
  have hknown : ∀ id own, valueOf step.before id = some own →
      ∀ value ∈ own :: (step.inboxes.get id).map (·.payload), value ∈ step.before := by
    intro id own hown value hvalue
    rcases List.mem_cons.mp hvalue with rfl | hvalue
    · exact mem_of_valueOf hown
    · obtain ⟨message, hmessage, rfl⟩ := List.mem_map.mp hvalue
      exact mem_of_valueOf (hfloods.received id message hmessage).2
  constructor
  · obtain ⟨id, hid, hown⟩ := exists_valueOf_of_mem hattained.1
    obtain ⟨own, hown', hnext⟩ := hfloods.after id hid
    obtain rfl := Option.some.inj (hown.symm.trans hown')
    have hpicked := attained_pick_exact extreme top ((step.inboxes.get id).map (·.payload))
    have hsame : extreme.pick top ((step.inboxes.get id).map (·.payload)) = top :=
      bounds_antisymm_exact extreme (hpicked.2 top List.mem_cons_self)
        (hattained.2 _ (hknown id top hown _ hpicked.1))
    rw [hsame] at hnext
    exact mem_of_valueOf hnext
  · intro other hother
    obtain ⟨id, hid, hvalue⟩ := exists_valueOf_of_mem hother
    rw [hfloods.length] at hid
    obtain ⟨own, hown, hnext⟩ := hfloods.after id hid
    obtain rfl := Option.some.inj (hvalue.symm.trans hnext)
    exact hattained.2 _ (hknown id own hown _ (extreme.pick_mem _ _))

/-! ## One round of both runs -/

/-- Whom a process hears in a round. -/
def Step.Hears (step : Step ℚ) (id sender : Int) : Prop :=
  ∃ message ∈ step.inboxes.get id, message.sender = sender

/-- A round keeps the values of a run ahead in which every process hears whomever it
hears in the other one. -/
theorem Ahead.after {step step' : Step ℚ} (hfloods : step.Floods extreme)
    (hfloods' : step'.Floods extreme) (hlength : step.before.length = step'.before.length)
    (hhears : ∀ id sender, step.Hears id sender → step'.Hears id sender)
    (hahead : Ahead extreme step.before step'.before) : Ahead extreme step.after step'.after := by
  intro id hid last last' hlast hlast'
  rw [hfloods.length] at hid
  obtain ⟨own, hown, hafter⟩ := hfloods.after id hid
  obtain ⟨own', hown', hafter'⟩ := hfloods'.after id (hlength ▸ hid)
  obtain rfl := Option.some.inj (hlast.symm.trans hafter)
  obtain rfl := Option.some.inj (hlast'.symm.trans hafter')
  have hpicked := extreme.pick_mem own ((step.inboxes.get id).map (·.payload))
  obtain ⟨_, hbounds⟩ := attained_pick_exact extreme own' ((step'.inboxes.get id).map (·.payload))
  -- The extreme value of the first run comes from the process itself or from one that it hears.
  rcases List.mem_cons.mp hpicked with heq | hmem
  · rw [heq]
    exact Extreme.bounds_trans (hbounds own' List.mem_cons_self) (hahead id hid own own' hown hown')
  · obtain ⟨message, hmessage, heq⟩ := List.mem_map.mp hmem
    obtain ⟨hsender, hvalue⟩ := hfloods.received id message hmessage
    obtain ⟨message', hmessage', hsame⟩ := hhears id message.sender ⟨message, hmessage, rfl⟩
    obtain ⟨_, hvalue'⟩ := hfloods'.received id message' hmessage'
    rw [hsame] at hvalue'
    rw [← heq]
    exact Extreme.bounds_trans
      (hbounds _ (List.mem_cons_of_mem _ (List.mem_map_of_mem hmessage')))
      (hahead message.sender hsender _ _ hvalue hvalue')

/-- Where the channel makes up for nothing, a process hears each sender whose slot is
filled. -/
theorem exists_sender_iff (hchannel : experiment.channel = .guarantee .none) {values : List ℚ}
    {round : Int} {generator next : Generator} {inboxes : Inboxes ℚ} {slots : List (Int × Int)}
    (hexchange : exchange experiment network values round generator = .ok (inboxes, next))
    (hfilled : arriving experiment network values round generator = .ok slots) {sender id : Int} :
    (∃ message ∈ inboxes.get id, message.sender = sender) ↔ (sender, id) ∈ slots := by
  obtain ⟨outbound, guarantee, _, hguarantee, _, harriving, rfl⟩ := exists_of_exchange hexchange
  obtain rfl : guarantee = .none := Setting.guarantee.inj (hguarantee.symm.trans hchannel)
  obtain rfl := Except.ok.inj (harriving.symm.trans hfilled)
  rw [topUp, Inboxes.get_ofDelivered, List.mem_map]
  constructor
  · rintro ⟨message, hmem, rfl⟩
    obtain ⟨hdelivered, rfl⟩ := mem_addressedTo.mp hmem
    exact ⟨message, hdelivered, rfl⟩
  · rintro ⟨message, hdelivered, hends⟩
    obtain ⟨rfl, rfl⟩ := Prod.mk.inj hends
    exact ⟨message, mem_addressedTo.mpr ⟨hdelivered, rfl⟩, rfl⟩

theorem CoupledRound.hears (hchannel : first.channel = .guarantee .none)
    (hchannel' : second.channel = .guarantee .none) {round : Int} {generator next : Generator}
    {step step' : Step ℚ} {slots slots' : List (Int × Int)}
    (hcoupled : CoupledRound first second network round generator next step step' slots slots')
    {id sender : Int} (h : step.Hears id sender) : step'.Hears id sender := by
  have hslot := (exists_sender_iff hchannel hcoupled.exchanged hcoupled.filled).mp h
  exact (exists_sender_iff hchannel' hcoupled.exchanged' hcoupled.filled').mpr
    (hcoupled.fewer.subset hslot)

/-! ## Whole runs -/

variable {finished finished' : Run ℚ}

/-- The extreme of the initial values is that of every state. -/
theorem Experiment.Spreads.attained_states (hspreads : experiment.Spreads extreme)
    (hrun : run experiment seed tolerance = .ok finished) {top : ℚ}
    (hattained : extreme.Attained finished.start top) {k : Nat} {held : List ℚ}
    (hheld : finished.states[k]? = some held) : extreme.Attained held top := by
  induction k generalizing held with
  | zero =>
      obtain rfl := Option.some.inj hheld
      exact hattained
  | succ k ih =>
      have hbefore := List.getElem?_eq_getElem
        (Nat.lt_of_succ_lt (List.getElem?_eq_some_iff.mp hheld).choose)
      obtain ⟨step, hstep, hsame, rfl⟩ := exists_round_of_states hrun hbefore hheld
      exact (hspreads.floods hrun hstep).attained (hsame ▸ ih hbefore)

theorem start_eq_withProbability {p : ℚ} (hrun : run experiment seed tolerance = .ok finished)
    (hrun' : run { experiment with p } seed tolerance' = .ok finished') :
    finished.start = finished'.start := by
  obtain ⟨_, _, _, _, hstart, _⟩ := exists_playRounds_of_run hrun
  obtain ⟨_, _, _, _, hstart', _⟩ := exists_playRounds_of_run hrun'
  exact Except.ok.inj (hstart.symm.trans hstart')

theorem Ahead.refl (extreme : Extreme) (values : List ℚ) : Ahead extreme values values := by
  intro id _ own own' hown hown'
  obtain rfl := Option.some.inj (hown.symm.trans hown')
  exact extreme.bounds_refl (Scalar.isNumber_exact own)

/-- At a greater probability a flood from the same seed is ahead in every state. -/
theorem Experiment.Spreads.ahead_states (hspreads : experiment.Spreads extreme) {p : ℚ}
    (hp : experiment.p ≤ p) (hrun : run experiment seed tolerance = .ok finished)
    (hrun' : run { experiment with p } seed tolerance' = .ok finished') {k : Nat}
    {held held' : List ℚ} (hheld : finished.states[k]? = some held)
    (hheld' : finished'.states[k]? = some held') :
    held.length = held'.length ∧ Ahead extreme held held' := by
  have hspreads' := hspreads.withProbability p
  induction k generalizing held held' with
  | zero =>
      obtain rfl := Option.some.inj hheld
      obtain rfl := Option.some.inj hheld'
      rw [start_eq_withProbability hrun hrun']
      exact ⟨rfl, Ahead.refl extreme _⟩
  | succ k ih =>
      have hbefore := List.getElem?_eq_getElem
        (Nat.lt_of_succ_lt (List.getElem?_eq_some_iff.mp hheld).choose)
      have hbefore' := List.getElem?_eq_getElem
        (Nat.lt_of_succ_lt (List.getElem?_eq_some_iff.mp hheld').choose)
      obtain ⟨hlength, hahead⟩ := ih hbefore hbefore'
      obtain ⟨step, hstep, hsame, rfl⟩ := exists_round_of_states hrun hbefore hheld
      obtain ⟨step', hstep', hsame', rfl⟩ := exists_round_of_states hrun' hbefore' hheld'
      rw [← hsame, ← hsame'] at hlength hahead
      have hcoupled := (sameChannel_withProbability experiment p).coupledRuns
        (Scalar.le_exact.mpr hp) hrun hrun'
      obtain ⟨network, _, _, hrounds⟩ := hcoupled.rounds
      obtain ⟨_, _, _, _, _, _, hround⟩ := hrounds k step step' hstep hstep'
      have hfloods := hspreads.floods hrun hstep
      have hfloods' := hspreads'.floods hrun' hstep'
      refine ⟨by rw [hfloods.length, hfloods'.length, hlength], ?_⟩
      exact hahead.after hfloods hfloods' hlength fun id sender hhears =>
        hround.hears hspreads.channel hspreads'.channel hhears

/-- Values that share their extreme and are ahead lie no further apart. -/
theorem Ahead.discrepancy_le {held held' : List ℚ} (hahead : Ahead extreme held held')
    (hlength : held.length = held'.length) {top : ℚ} (hattained : extreme.Attained held top)
    (hattained' : extreme.Attained held' top) : discrepancy held' ≤ discrepancy held := by
  obtain ⟨low, high, hspan⟩ := exists_span_eq_Icc held
  have htop := mem_span_of_mem hattained.1
  refine discrepancy_le_of_span_subset ?_
  rw [hspan] at htop ⊢
  refine span_subset_Icc fun value' hvalue' => ?_
  obtain ⟨id, hid, hat'⟩ := exists_valueOf_of_mem hvalue'
  rw [← hlength] at hid
  obtain ⟨own, hown⟩ := exists_valueOf hid
  have hinside := mem_span_of_mem (mem_of_valueOf hown)
  rw [hspan] at hinside
  have hfar := hattained'.2 value' hvalue'
  have hnear := hahead id hid own value' hown hat'
  cases extreme with
  | least =>
      exact ⟨htop.1.trans (Scalar.le_exact.mp hfar), (Scalar.le_exact.mp hnear).trans hinside.2⟩
  | greatest =>
      exact ⟨hinside.1.trans (Scalar.le_exact.mp hnear), (Scalar.le_exact.mp hfar).trans htop.2⟩

/-- Without a phase at the end the discrepancies of a run are those of its states. -/
theorem discrepancies_eq_states (hend : experiment.hasEnd = false)
    (hrun : run experiment seed tolerance = .ok finished) :
    (finished.summary tolerance).discrepancies = finished.states.map discrepancy := by
  rcases steps_of_run hrun with ⟨_, hsteps⟩ | ⟨hend', _⟩
  · rw [discrepancies_eq_map, hsteps, Run.states]
  · rw [hend] at hend'
    cases hend'

/-- At a greater probability a flood from the same seed has no greater discrepancy after
any round. -/
theorem Experiment.Spreads.discrepancies_le (hspreads : experiment.Spreads extreme) {p : ℚ}
    (hp : experiment.p ≤ p) (hrun : run experiment seed tolerance = .ok finished)
    (hrun' : run { experiment with p } seed tolerance' = .ok finished') :
    List.Forall₂ (· ≥ ·) (finished.summary tolerance).discrepancies
      (finished'.summary tolerance').discrepancies := by
  have hspreads' := hspreads.withProbability p
  have hend := hspreads.takes.hasEnd_eq
  have hend' := hspreads'.takes.hasEnd_eq
  have hcount := (length_states_of_run hrun).2
  have hcount' := (length_states_of_run hrun').2
  rw [discrepancies_eq_states hend hrun, discrepancies_eq_states hend' hrun',
    List.forall₂_map_left_iff, List.forall₂_map_right_iff]
  refine List.forall₂_iff_get.mpr ⟨hcount.trans hcount'.symm, fun k hk hk' => ?_⟩
  have hheld := List.getElem?_eq_getElem hk
  have hheld' := List.getElem?_eq_getElem hk'
  obtain ⟨hlength, hahead⟩ := hspreads.ahead_states hp hrun hrun' hheld hheld'
  cases hstart : finished.start with
  | nil =>
      -- Without processes there are no values to lie apart.
      have hnone := length_of_mem_states hrun List.mem_cons_self
      rw [hstart] at hnone
      have hempty : finished.states[k] = [] := List.length_eq_zero_iff.mp
        ((length_of_mem_states hrun (List.getElem_mem hk)).trans hnone.symm)
      have hempty' : finished'.states[k] = [] := List.length_eq_zero_iff.mp
        (hlength.symm.trans (List.length_eq_zero_iff.mpr hempty))
      rw [List.get_eq_getElem, List.get_eq_getElem, hempty, hempty']
  | cons value values =>
      have hattained := attained_pick_exact extreme value values
      rw [← hstart] at hattained
      have hsame := start_eq_withProbability hrun hrun'
      exact hahead.discrepancy_le hlength (hspreads.attained_states hrun hattained hheld)
        (hspreads'.attained_states hrun' (hsame ▸ hattained) hheld')

end LossyConsensus.Simulation
