/-
# Isolated groups

A group of processes is isolated if topology and faults let no message from
outside of it through to a member.  What its members hold and receive then does
not depend on the values outside: these are neither seen through the draws, which
look at the ends of messages only, nor through the order of delivery, nor through
the lost messages that the channel makes up for.  The one thing that all
processes learn of all values is whether they agree, and only a phase that waits
for consensus asks for it.
-/

import LossyConsensus.Proofs.Network.Likeness
import LossyConsensus.Proofs.Simulation.Coupling
import LossyConsensus.Proofs.Simulation.Step
import Mathlib.Data.List.Pairwise

namespace LossyConsensus.Simulation

open LossyConsensus.Network LossyConsensus.Protocol LossyConsensus.Random

variable {R : Type} [Scalar R]

/-- Values that are the same for the processes of a group. -/
structure AgreeOn (group : Set Int) (values others : List R) : Prop where
  length : values.length = others.length
  value : ∀ id ∈ processIds values.length, id ∈ group → valueOf values id = valueOf others id

/-- Messages with the same ends, which are the same message if it comes from a
group. -/
def SharedIn (group : Set Int) (message other : Message R) : Prop :=
  message.ends = other.ends ∧ (message.sender ∈ group → message = other)

/-- Steps of two runs that are the same for the processes of a group: in what they
hold before and after, and in what they receive. -/
structure Step.SameFor (group : Set Int) (step other : Step R) : Prop where
  round : step.round = other.round
  isEnd : step.isEnd = other.isEnd
  before : AgreeOn group step.before other.before
  inboxes : ∀ id ∈ group, step.inboxes.get id = other.inboxes.get id
  after : AgreeOn group step.after other.after

/-- No message comes into a group from outside. -/
def StaysOut (group : Set Int) (messages : List (Message R)) : Prop :=
  ∀ message ∈ messages, message.receiver ∈ group → message.sender ∈ group

/-- Rounds in which topology and faults let no message into a group from
outside. -/
def Secluded (group : Set Int) (experiment : Experiment R) (rounds : List (Step R)) : Prop :=
  ∀ network, Network.ofExperiment experiment = .ok network →
    ∀ step ∈ rounds, ∀ outbound, sent experiment network step.before step.round = .ok outbound →
      StaysOut group outbound

variable {group : Set Int} {experiment : Experiment R} {network : Network R} {tolerance : R}
  {values others : List R}

/-! ## Messages of a round -/

omit [Scalar R] in
theorem keepsEnds_sharedIn : KeepsEnds (SharedIn (R := R) group) :=
  fun _ _ h => h.1

omit [Scalar R] in
/-- Floods of values that agree on a group share the messages that come from it. -/
theorem AgreeOn.flood (hagree : AgreeOn group values others) :
    List.Forall₂ (SharedIn group) (flood values) (flood others) := by
  have hends := List.forall₂_iff_get.mp (forall₂_ends_iff.mpr (map_ends_flood_eq hagree.length))
  refine List.forall₂_iff_get.mpr ⟨hends.1, fun index hindex hindex' => ?_⟩
  have hsame := hends.2 index hindex hindex'
  refine ⟨hsame, fun hmember => ?_⟩
  have hmem := List.get_mem (Network.flood values) ⟨index, hindex⟩
  have hmem' := List.get_mem (Network.flood others) ⟨index, hindex'⟩
  obtain ⟨hsender, _⟩ := Message.ends_eq.mp hsame
  have hvalue := hagree.value _ (sender_mem_processIds_of_mem_flood hmem) hmember
  have hpayload := (mem_flood.mp hmem').2.1
  rw [← hsender, ← valueOf, ← hvalue, valueOf, (mem_flood.mp hmem).2.1] at hpayload
  exact Message.eq_of_ends hsame (Option.some.inj hpayload)

/-- Faults leave alike of shared messages. -/
theorem sharedIn_affect {fault : Fault R} {round : Int} {message other : Message R}
    (h : SharedIn group message other) {left left' : Option (Message R)}
    (hleft : fault.affect message round = .ok left)
    (hleft' : fault.affect other round = .ok left') : Option.Rel (SharedIn group) left left' := by
  by_cases hmember : message.sender ∈ group
  · rw [← h.2 hmember] at hleft'
    obtain rfl := Except.ok.inj (hleft.symm.trans hleft')
    cases left with
    | none => exact .none
    | some changed => exact .some ⟨rfl, fun _ => rfl⟩
  · have hends := Fault.map_ends_affect_eq h.1 hleft hleft'
    cases left with
    | none =>
        cases left' with
        | none => exact .none
        | some changed' => cases hends
    | some changed =>
        cases left' with
        | none => cases hends
        | some changed' =>
            have hkept := Fault.ends_transform fault (Fault.affect_eq_some.mp hleft).2
            refine .some ⟨Option.some.inj hends, fun hsender => ?_⟩
            rw [(Message.ends_eq.mp hkept).1] at hsender
            exact absurd hsender hmember

/-- What topology and faults leave of two floods is shared. -/
theorem AgreeOn.sent (hagree : AgreeOn group values others) {round : Int}
    {outbound outbound' : List (Message R)}
    (hsent : sent experiment network values round = .ok outbound)
    (hsent' : sent experiment network others round = .ok outbound') :
    List.Forall₂ (SharedIn group) outbound outbound' := by
  have hkept : List.Forall₂ (SharedIn group) ((Network.flood values).filter network.connects)
      ((Network.flood others).filter network.connects) := by
    refine keepsEnds_sharedIn.filter _ ?_ hagree.flood
    intro message other hends
    obtain ⟨hsender, hreceiver⟩ := Message.ends_eq.mp hends
    rw [Network.connects, Network.connects, hsender, hreceiver]
  rw [Simulation.sent] at hsent hsent'
  cases hfaults : experiment.faults with
  | none =>
      rw [hfaults] at hsent hsent'
      cases hsent
      cases hsent'
      exact hkept
  | some fault =>
      rw [hfaults] at hsent hsent'
      obtain ⟨affected, haffected, h⟩ := bind_eq_ok.mp (mapError_eq_ok.mp hsent)
      obtain ⟨affected', haffected', h'⟩ := bind_eq_ok.mp (mapError_eq_ok.mp hsent')
      obtain rfl := pure_eq_ok.mp h
      obtain rfl := pure_eq_ok.mp h'
      have hrelated := forall₂_of_mapM hkept haffected haffected'
        fun _ _ _ _ hshared hleft hleft' => sharedIn_affect hshared hleft hleft'
      exact List.rel_filterMap (fun _ _ hrel => hrel) hrelated

/-- An exchange without messages from outside gives the members of a group the
same inboxes, whatever the others hold. -/
theorem AgreeOn.exchange (hagree : AgreeOn group values others) {round : Int}
    {generator next next' : Generator} {inboxes inboxes' : Inboxes R}
    (hstays : ∀ outbound, Simulation.sent experiment network values round = .ok outbound →
      StaysOut group outbound)
    (h : exchange experiment network values round generator = .ok (inboxes, next))
    (h' : exchange experiment network others round generator = .ok (inboxes', next')) :
    next = next' ∧ ∀ id ∈ group, inboxes.get id = inboxes'.get id := by
  obtain ⟨kept, hsentKept, _, hsublist⟩ := exists_perm_sublist_of_exchange h
  obtain ⟨outbound, guarantee, hsent, hchannel, rfl, _, rfl⟩ := exists_of_exchange h
  obtain ⟨outbound', guarantee', hsent', hchannel', rfl, _, rfl⟩ := exists_of_exchange h'
  obtain rfl := Except.ok.inj (hsentKept.symm.trans hsent)
  obtain rfl := Setting.guarantee.inj (hchannel.symm.trans hchannel')
  obtain ⟨hnext, halike⟩ := keepsEnds_sharedIn.deliver (hagree.sent hsent hsent')
    network.assignment experiment.p generator
  refine ⟨hnext, fun id hid => ?_⟩
  have hinbox := keepsEnds_sharedIn.get_topUp halike guarantee experiment.processes id
  refine List.forall₂_eq_eq_eq ▸ List.forall₂_iff_get.mpr ⟨hinbox.length_eq, ?_⟩
  intro index hindex hindex'
  refine ((List.forall₂_iff_get.mp hinbox).2 index hindex hindex').2 ?_
  -- A message in the inbox of a member was sent to it, so it comes from a member.
  obtain ⟨ordered, hperm, hinto⟩ := hsublist id
  obtain ⟨hmem, hreceiver⟩ := mem_addressedTo.mp
    (hperm.subset (hinto.subset (List.get_mem _ ⟨index, hindex⟩)))
  exact hstays _ hsent _ hmem (by rw [hreceiver]; exact hid)

/-! ## Steps -/

/-- A step gives the members of a group the same values if it computes them from
the same values and inboxes. -/
theorem AgreeOn.commit (hagree : AgreeOn group values others) {round : Nat}
    {inboxes inboxes' : Inboxes R} (hinboxes : ∀ id ∈ group, inboxes.get id = inboxes'.get id)
    {next : View R → Except EvalError R} {after after' : List R}
    (h : commit experiment round inboxes values next = .ok after)
    (h' : commit experiment round inboxes' others next = .ok after') :
    AgreeOn group after after' := by
  refine ⟨by rw [length_commit h, length_commit h', hagree.length], fun id hid hmember => ?_⟩
  rw [length_commit h] at hid
  obtain ⟨own, value, hown, hvalue, hafter⟩ := exists_of_commit h hid
  obtain ⟨own', value', hown', hvalue', hafter'⟩ := exists_of_commit h' (hagree.length ▸ hid)
  rw [hagree.value id hid hmember] at hown
  obtain rfl := Option.some.inj (hown.symm.trans hown')
  rw [hinboxes id hmember] at hvalue
  obtain rfl := Except.ok.inj (hvalue.symm.trans hvalue')
  rw [hafter, hafter']

/-- Without a phase that waits for consensus, a round does not ask for it. -/
theorem apply_eq_of_forall_ne (hphases : ∀ phase ∈ experiment.phases, phase.kind ≠ .untilConsensus)
    (view : View R) (round : Int) (consensus consensus' : Bool) :
    experiment.apply view round consensus = experiment.apply view round consensus' := by
  have hactive : experiment.roundPhases.filter (·.isActive round consensus) =
      experiment.roundPhases.filter (·.isActive round consensus') := by
    refine List.filter_congr fun phase hphase => ?_
    have hkind := hphases phase (List.mem_of_mem_filter hphase)
    unfold Phase.isActive
    cases hcase : phase.kind with
    | untilConsensus => exact absurd hcase hkind
    | _ => rfl
  rw [Experiment.apply, Experiment.apply, hactive]

/-- A round without messages from outside is the same for the members of a
group. -/
theorem AgreeOn.playRound (hagree : AgreeOn group values others)
    (hphases : ∀ phase ∈ experiment.phases, phase.kind ≠ .untilConsensus) {round : Nat}
    {generator next next' : Generator} {step step' : Step R}
    (hstays : ∀ outbound, Simulation.sent experiment network values round = .ok outbound →
      StaysOut group outbound)
    (h : playRound experiment network tolerance round values generator = .ok (step, next))
    (h' : playRound experiment network tolerance round others generator = .ok (step', next')) :
    next = next' ∧ step.SameFor group step' := by
  obtain ⟨hround, hbefore, hisEnd, _⟩ := playRound_eq_ok h
  obtain ⟨hround', hbefore', hisEnd', _⟩ := playRound_eq_ok h'
  obtain ⟨hexchange, hcommit⟩ := playRound_parts h
  obtain ⟨hexchange', hcommit'⟩ := playRound_parts h'
  obtain ⟨hnext, hinboxes⟩ := hagree.exchange hstays hexchange hexchange'
  have hflag : (fun view => experiment.apply view round (isConsensus tolerance values)) =
      fun view => experiment.apply view round (isConsensus tolerance others) :=
    funext fun view => apply_eq_of_forall_ne hphases view _ _ _
  rw [hflag] at hcommit
  refine ⟨hnext, hround.trans hround'.symm, hisEnd.trans hisEnd'.symm, ?_, hinboxes,
    hagree.commit hinboxes hcommit hcommit'⟩
  rw [hbefore, hbefore']
  exact hagree

/-- Rounds without messages from outside are the same for the members of a group:
each begins with values that agree on it, and with the same generator. -/
theorem AgreeOn.playRounds (hagree : AgreeOn group values others)
    (hphases : ∀ phase ∈ experiment.phases, phase.kind ≠ .untilConsensus) {count round : Nat}
    {generator : Generator} {steps steps' : List (Step R)}
    (hstays : ∀ step ∈ steps, ∀ outbound,
      Simulation.sent experiment network step.before step.round = .ok outbound →
        StaysOut group outbound)
    (h : playRounds experiment network tolerance count round values generator = .ok steps)
    (h' : playRounds experiment network tolerance count round others generator = .ok steps') :
    List.Forall₂ (Step.SameFor group) steps steps' := by
  induction count generalizing round values others generator steps steps' with
  | zero =>
      cases h
      cases h'
      exact .nil
  | succ count ih =>
      rw [Simulation.playRounds, bind_eq_ok] at h h'
      obtain ⟨⟨step, next⟩, hround, h⟩ := h
      obtain ⟨⟨step', next'⟩, hround', h'⟩ := h'
      obtain ⟨rest, hrest, h⟩ := bind_eq_ok.mp h
      obtain ⟨rest', hrest', h'⟩ := bind_eq_ok.mp h'
      obtain rfl := pure_eq_ok.mp h
      obtain rfl := pure_eq_ok.mp h'
      obtain ⟨hnumber, hbefore, _⟩ := playRound_eq_ok hround
      obtain ⟨hfirst, hlater⟩ := List.forall_mem_cons.mp hstays
      rw [hbefore, hnumber] at hfirst
      obtain ⟨rfl, hsame⟩ := hagree.playRound hphases hfirst hround hround'
      exact .cons hsame (ih hsame.after hlater hrest hrest')

/-! ## Whole runs -/

/-- Rounds do not ask how the initial values came about. -/
theorem playRounds_withInitial (experiment : Experiment R) (initial : Initial R) {count round : Nat}
    {generator : Generator} :
    playRounds { experiment with initial } network tolerance count round values generator =
      playRounds experiment network tolerance count round values generator := by
  induction count generalizing round values generator with
  | zero => rfl
  | succ count ih =>
      rw [playRounds, playRounds]
      simp only [ih]
      rfl

omit [Scalar R] in
/-- What the members of a group hold after some steps. -/
theorem AgreeOn.valuesAfter (hagree : AgreeOn group values others) {steps steps' : List (Step R)}
    (hsteps : List.Forall₂ (Step.SameFor group) steps steps') :
    AgreeOn group (valuesAfter values steps) (valuesAfter others steps') := by
  have hlast := rel_getLast? hsteps
  rw [Simulation.valuesAfter, Simulation.valuesAfter]
  generalize steps.getLast? = last, steps'.getLast? = last' at hlast ⊢
  cases hlast with
  | none => exact hagree
  | some hsame => exact hsame.after

/-- The phase at the end finds the inboxes of the last round, which are the same
for the members of the group. -/
theorem AgreeOn.playEnd (hagree : AgreeOn group values others) {rounds rounds' : List (Step R)}
    (hrounds : List.Forall₂ (Step.SameFor group) rounds rounds') {step step' : Step R}
    (h : playEnd experiment (Simulation.valuesAfter values rounds)
      (lastInboxes experiment rounds) = .ok step)
    (h' : playEnd experiment (Simulation.valuesAfter others rounds')
      (lastInboxes experiment rounds') = .ok step') :
    step.SameFor group step' := by
  obtain ⟨hround, hbefore, hinboxes, hisEnd, hcommit⟩ := playEnd_parts h
  obtain ⟨hround', hbefore', hinboxes', hisEnd', hcommit'⟩ := playEnd_parts h'
  have hvalues := hagree.valuesAfter hrounds
  have hsame : ∀ id ∈ group, (lastInboxes experiment rounds).get id =
      (lastInboxes experiment rounds').get id := by
    have hlast := rel_getLast? hrounds
    rw [lastInboxes, lastInboxes]
    generalize rounds.getLast? = last, rounds'.getLast? = last' at hlast ⊢
    cases hlast with
    | none => exact fun _ _ => rfl
    | some hround => exact hround.inboxes
  refine ⟨hround.trans hround'.symm, hisEnd.trans hisEnd'.symm, ?_, ?_,
    hvalues.commit hsame hcommit hcommit'⟩
  · rw [hbefore, hbefore']
    exact hvalues
  · rw [hinboxes, hinboxes']
    exact hsame

/-- A group of a partition that is in force from the first round on, and for good,
is isolated, whatever other faults there are. -/
theorem secluded_of_partition {seed : Int} {finished : Run R}
    (hrun : run experiment seed tolerance = .ok finished) {fault : Fault R}
    (hfaults : experiment.faults = some fault) {start : Int} (hstart : start ≤ 1)
    {groups : List (List Int)} (hpart : (Fault.partition start 0 groups).IsPart fault)
    (hdisjoint : groups.flatten.Nodup) {members : List Int} (hmembers : members ∈ groups) :
    Secluded {id | id ∈ members} experiment finished.rounds := by
  intro network hnetwork step hstep outbound hsent message hmem hreceiver
  obtain ⟨k, hk⟩ := List.mem_iff_getElem?.mp hstep
  obtain ⟨_, _, _, _, _, _, _, hround⟩ := exists_playRound_of_run hrun hk
  have hnumber : step.round = k + 1 := (playRound_eq_ok hround).1
  obtain ⟨first, _, _, hends, _, haffect⟩ := exists_mem_flood_of_mem_sent hsent hmem
  obtain ⟨hsender, hreceives⟩ := Message.ends_eq.mp hends
  have hpasses := Fault.passes_of_isPart hpart (Fault.affect_eq_some.mp (haffect fault hfaults)).1
  have hsplit : Fault.isSplit start 0 step.round = true := by
    simp only [Fault.isSplit, Int.lt_irrefl, decide_false, Bool.false_and, Bool.not_false,
      Bool.and_true, decide_eq_true_eq]
    omega
  rw [← hsender, ← hreceives, Fault.passes, hsplit] at hpasses
  simp only [Bool.not_true, Bool.false_or, Except.ok.injEq, List.any_eq_true, Bool.and_eq_true,
    List.contains_iff_mem] at hpasses
  obtain ⟨others, hothers, hfrom, hto⟩ := hpasses
  -- The receiver is in one group only, so the sender is in the same one.
  have hsame : members = others := by
    by_contra hne
    have hsymm : Std.Symm fun first second : List Int => first.Disjoint second :=
      ⟨fun _ _ h => List.disjoint_symm h⟩
    exact (List.nodup_flatten.mp hdisjoint).2.forall hmembers hothers hne hreceiver hto
  exact hsame ▸ hfrom

/-- What the members of an isolated group hold and receive does not depend on the
others.  Two runs from one seed, whose initial values differ only outside of a
group that topology and faults let no message into, are the same for its members
in every round and in the phase at the end, unless a phase waits for
consensus. -/
theorem isolated_group_runs_alone (experiment : Experiment R) (initial : Initial R)
    (group : Set Int) (hphases : ∀ phase ∈ experiment.phases, phase.kind ≠ .untilConsensus)
    {seed : Int} {tolerance : R} {finished finished' : Run R}
    (hrun : run experiment seed tolerance = .ok finished)
    (hrun' : run { experiment with initial } seed tolerance = .ok finished')
    (hstart : ∀ id ∈ processIds experiment.processes, id ∈ group →
      valueOf finished.start id = valueOf finished'.start id)
    (hsecluded : Secluded group experiment finished.rounds) :
    finished.rounds.length = experiment.rounds ∧
      List.Forall₂ (Step.SameFor group) finished.steps finished'.steps ∧
      AgreeOn group finished.finalValues finished'.finalValues := by
  obtain ⟨network, generator, hnetwork, hgenerator, hvalues, hrounds, _⟩ :=
    exists_playRounds_of_run hrun
  obtain ⟨network', generator', hnetwork', hgenerator', hvalues', hrounds', _⟩ :=
    exists_playRounds_of_run hrun'
  obtain rfl := Except.ok.inj (hnetwork.symm.trans hnetwork')
  obtain rfl := Except.ok.inj (hgenerator.symm.trans hgenerator')
  have hlength := length_initialValues hvalues
  have hagree : AgreeOn group finished.start finished'.start :=
    ⟨hlength.trans (length_initialValues hvalues').symm, hlength ▸ hstart⟩
  have hsame : List.Forall₂ (Step.SameFor group) finished.rounds finished'.rounds :=
    hagree.playRounds hphases (hsecluded network hnetwork) hrounds
      ((playRounds_withInitial experiment initial).symm.trans hrounds')
  refine ⟨(length_states_of_run hrun).1, ?_⟩
  have hsteps : List.Forall₂ (Step.SameFor group) finished.steps finished'.steps := by
    rcases steps_of_run hrun with ⟨hend, hsteps⟩ | ⟨hend, last, hsteps, hlast⟩
    · rcases steps_of_run hrun' with ⟨_, hsteps'⟩ | ⟨hend', _⟩
      · rw [hsteps, hsteps']
        exact hsame
      · exact absurd (hend.symm.trans hend') Bool.false_ne_true
    · rcases steps_of_run hrun' with ⟨hend', _⟩ | ⟨_, last', hsteps', hlast'⟩
      · exact absurd (hend'.symm.trans hend) Bool.false_ne_true
      · rw [hsteps, hsteps']
        exact List.rel_append hsame (.cons (hagree.playEnd hsame hlast hlast') .nil)
  exact ⟨hsteps, hagree.valuesAfter hsteps⟩

/-- Four processes on two islands between which no message passes.  They take the
average of what they know, and at the end the greatest value; some messages are
corrupted, and inboxes are topped up. -/
def islands : Experiment Float where
  name := "islands"
  processes := 4
  rounds := 2
  p := Scalar.ofDraw (2 ^ 52)
  phases := [{ kind := .eachRound, rule := .combine .average },
    { kind := .atEnd, rule := .combine .max }]
  leader := none
  parameters := []
  initial := .values [0.0, 1.0, 2.0, 3.0]
  models := [{ kind := .standard }, { kind := .broadcast, process := some 3 }]
  channel := .guarantee .majority
  topology := none
  faults := some (.composite
    [.corruption (Scalar.ofDraw (2 ^ 51)) .flipBits 5, .partition 1 0 [[1, 2], [3, 4]]])

/-- The first island fares the same whatever the second one starts with. -/
theorem islands_run_alone : ∃ finished finished',
    run islands 7 Scalar.zero = .ok finished ∧
    run { islands with initial := .values [0.0, 1.0, 9.0, 8.0] } 7 Scalar.zero = .ok finished' ∧
    Secluded {id | id ∈ ([1, 2] : List Int)} islands finished.rounds ∧
    finished.rounds.length = 2 ∧
    List.Forall₂ (Step.SameFor {id | id ∈ ([1, 2] : List Int)}) finished.steps finished'.steps ∧
    AgreeOn {id | id ∈ ([1, 2] : List Int)} finished.finalValues finished'.finalValues := by
  have hplays : (run islands 7 Scalar.zero).isOk = true := by decide +kernel
  have hplays' : (run { islands with initial := .values [0.0, 1.0, 9.0, 8.0] } 7
      Scalar.zero).isOk = true := by decide +kernel
  obtain ⟨finished, hrun⟩ := exists_eq_ok hplays
  obtain ⟨finished', hrun'⟩ := exists_eq_ok hplays'
  obtain ⟨_, _, _, _, hvalues, _⟩ := exists_playRounds_of_run hrun
  obtain ⟨_, _, _, _, hvalues', _⟩ := exists_playRounds_of_run hrun'
  have hstart : finished.start = [0.0, 1.0, 2.0, 3.0] := (Except.ok.inj hvalues).symm
  have hstart' : finished'.start = [0.0, 1.0, 9.0, 8.0] := (Except.ok.inj hvalues').symm
  have hpart : (Fault.partition (R := Float) 1 0 [[1, 2], [3, 4]]).IsPart
      (.composite [.corruption (Scalar.ofDraw (2 ^ 51)) .flipBits 5,
        .partition 1 0 [[1, 2], [3, 4]]]) :=
    .member (by simp) (.whole _)
  have hsecluded : Secluded {id | id ∈ ([1, 2] : List Int)} islands finished.rounds :=
    secluded_of_partition hrun rfl (by decide) hpart (by decide) (by simp)
  refine ⟨finished, finished', hrun, hrun', hsecluded,
    isolated_group_runs_alone islands _ _ ?_ hrun hrun' ?_ hsecluded⟩
  · intro phase hphase
    simp only [islands, List.mem_cons, List.not_mem_nil, or_false] at hphase
    rcases hphase with rfl | rfl <;> decide
  · intro id _ hmember
    rw [hstart, hstart']
    have hisland : id = 1 ∨ id = 2 := by simpa using hmember
    rcases hisland with rfl | rfl <;> simp [valueOf]

end LossyConsensus.Simulation
