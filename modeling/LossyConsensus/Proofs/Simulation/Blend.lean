/-
# Values that runs hand on

If all rules of a protocol blend values and its faults change none, then whatever
holds of all values of a state, and is kept by blending, holds of everything that
is received in the next round and of the state after it.  A phase at the end keeps
what holds of the last state and of the one before it, since it sees the messages
of the last round again.
-/

import LossyConsensus.Proofs.Network.Fault
import LossyConsensus.Proofs.Protocol.Blend
import LossyConsensus.Proofs.Simulation.Step

namespace LossyConsensus.Simulation

open LossyConsensus.Network LossyConsensus.Protocol LossyConsensus.Random

variable {R : Type} [Scalar R]

/-- An experiment whose rules, also those at the end, blend values, and whose faults
change none. -/
structure Experiment.Blends (blend : Blend) (experiment : Experiment R) : Prop where
  rules : ∀ phase ∈ experiment.phases, phase.rule.BlendsBy blend
  faults : ∀ fault, experiment.faults = some fault → fault.DropsOnly

/-- Something holds of all values of a step: of those held before it, of those
received in it, and of those held after it. -/
structure Step.Stays (inside : R → Prop) (step : Step R) : Prop where
  before : ∀ value ∈ step.before, inside value
  received : ∀ id, ∀ message ∈ step.inboxes.get id, inside message.payload
  after : ∀ value ∈ step.after, inside value

/-- How a value arises does not matter to a property. -/
def KeptAsItArises (inside : R → Prop) : Prop :=
  ∀ round process value, inside value → inside (Scalar.arise round process value)

variable {blend : Blend} {inside : R → Prop} {experiment : Experiment R} {network : Network R}
  {seed : Int} {tolerance : R} {values : List R}

/-! ## One step -/

/-- Phases that blend one after the other keep what holds of all values seen. -/
theorem inside_of_runPhases (hkeeps : blend.Keeps inside) {phases : List (Phase R)}
    (hphases : ∀ phase ∈ phases, phase.rule.BlendsBy blend) {view : View R}
    (hsees : view.Sees inside) {value : R} (h : Experiment.runPhases view phases = .ok value) :
    inside value := by
  induction phases generalizing view with
  | nil =>
      cases h
      exact hsees.own
  | cons phase rest ih =>
      obtain ⟨hphase, hrest⟩ := List.forall_mem_cons.mp hphases
      rw [Experiment.runPhases, bind_eq_ok] at h
      obtain ⟨own, hown, h⟩ := h
      have hnext : View.Sees inside { view with own } :=
        ⟨hphase.eval hkeeps hsees hown, hsees.received⟩
      exact ih hrest hnext h

/-- A message that arrives carries a value of the state before the round. -/
theorem Experiment.Blends.payload_mem (hblends : experiment.Blends blend) {round : Int}
    {generator next : Generator} {inboxes : Inboxes R}
    (h : exchange experiment network values round generator = .ok (inboxes, next)) {id : Int}
    {message : Message R} (hmem : message ∈ inboxes.get id) : message.payload ∈ values := by
  obtain ⟨outbound, hsent, _, hsublist⟩ := exists_perm_sublist_of_exchange h
  obtain ⟨kept, hperm, hinto⟩ := hsublist id
  have hout := (mem_addressedTo.mp (hperm.subset (hinto.subset hmem))).1
  obtain ⟨first, hflood, _, _, hclean, hfaulty⟩ := exists_mem_flood_of_mem_sent hsent hout
  have hsame : message = first := by
    cases hfaults : experiment.faults with
    | none => exact hclean hfaults
    | some fault =>
        exact (hblends.faults fault hfaults).transform_eq
          (Fault.affect_eq_some.mp (hfaulty fault hfaults)).2
  rw [hsame]
  exact List.mem_of_getElem? (mem_flood.mp hflood).2.1

/-- A step of every process keeps what holds of all values held and received. -/
theorem inside_of_commit (harises : KeptAsItArises inside) {round : Nat} {inboxes : Inboxes R}
    {after : List R} {next : View R → Except EvalError R}
    (hnext : ∀ view value, view.Sees inside → next view = .ok value → inside value)
    (hvalues : ∀ value ∈ values, inside value)
    (hinboxes : ∀ id, ∀ message ∈ inboxes.get id, inside message.payload)
    (h : commit experiment round inboxes values next = .ok after) :
    ∀ value ∈ after, inside value := by
  intro value hvalue
  obtain ⟨id, hid, hat⟩ := exists_valueOf_of_mem hvalue
  rw [length_commit h] at hid
  obtain ⟨own, result, hown, hresult, hafter⟩ := exists_of_commit h hid
  obtain rfl := Option.some.inj (hat.symm.trans hafter)
  refine harises _ _ _ (hnext _ _ ⟨hvalues own (mem_of_valueOf hown), ?_⟩ hresult)
  intro received hreceived
  simp only [View.received, Experiment.view, packed, List.map_map, List.mem_map] at hreceived
  obtain ⟨message, hmessage, rfl⟩ := hreceived
  exact hinboxes id message hmessage

/-- A round keeps what holds of all values before it. -/
theorem Experiment.Blends.round_stays (hblends : experiment.Blends blend)
    (hkeeps : blend.Keeps inside) (harises : KeptAsItArises inside) {round : Nat}
    {generator next : Generator} {step : Step R}
    (h : playRound experiment network tolerance round values generator = .ok (step, next))
    (hvalues : ∀ value ∈ values, inside value) : step.Stays inside := by
  obtain ⟨hexchange, hcommit⟩ := playRound_parts h
  obtain ⟨_, hbefore, _⟩ := playRound_eq_ok h
  have hreceived : ∀ id, ∀ message ∈ step.inboxes.get id, inside message.payload :=
    fun id message hmessage => hvalues _ (hblends.payload_mem hexchange hmessage)
  refine ⟨hbefore ▸ hvalues, hreceived, inside_of_commit harises ?_ hvalues hreceived hcommit⟩
  intro view value hsees hvalue
  refine inside_of_runPhases hkeeps ?_ hsees hvalue
  intro phase hphase
  exact hblends.rules phase (List.mem_of_mem_filter (List.mem_of_mem_filter hphase))

/-- The phase at the end keeps what holds of all values held before it and of the
messages of the last round. -/
theorem Experiment.Blends.end_stays (hblends : experiment.Blends blend)
    (hkeeps : blend.Keeps inside) (harises : KeptAsItArises inside) {inboxes : Inboxes R}
    {step : Step R} (h : playEnd experiment values inboxes = .ok step)
    (hvalues : ∀ value ∈ values, inside value)
    (hinboxes : ∀ id, ∀ message ∈ inboxes.get id, inside message.payload) :
    step.Stays inside := by
  obtain ⟨_, hbefore, hsame, _, hcommit⟩ := playEnd_parts h
  refine ⟨hbefore ▸ hvalues, hsame ▸ hinboxes,
    inside_of_commit harises ?_ hvalues hinboxes hcommit⟩
  intro view value hsees hvalue
  refine inside_of_runPhases hkeeps ?_ hsees hvalue
  intro phase hphase
  exact hblends.rules phase (List.mem_of_mem_filter hphase)

/-! ## Whole runs -/

/-- All states of a run keep what holds of the initial values. -/
theorem Experiment.Blends.inside_of_states (hblends : experiment.Blends blend)
    (hkeeps : blend.Keeps inside) (harises : KeptAsItArises inside) {finished : Run R}
    (hrun : run experiment seed tolerance = .ok finished)
    (hstart : ∀ value ∈ finished.start, inside value) {k : Nat} {held : List R}
    (hheld : finished.states[k]? = some held) : ∀ value ∈ held, inside value := by
  induction k generalizing held with
  | zero =>
      obtain rfl : finished.start = held := Option.some.inj hheld
      exact hstart
  | succ k ih =>
      obtain ⟨step, hstep, rfl⟩ : ∃ step, finished.rounds[k]? = some step ∧ step.after = held := by
        rw [Run.states, List.getElem?_cons_succ, List.getElem?_map] at hheld
        exact Option.map_eq_some_iff.mp hheld
      obtain ⟨hbefore, _, _, _, _, _, _, hround⟩ := exists_playRound_of_run hrun hstep
      exact (hblends.round_stays hkeeps harises hround (ih hbefore)).after

/-- All steps of a run keep what holds of the initial values. -/
theorem Experiment.Blends.steps_stay (hblends : experiment.Blends blend)
    (hkeeps : blend.Keeps inside) (harises : KeptAsItArises inside) {finished : Run R}
    (hrun : run experiment seed tolerance = .ok finished)
    (hstart : ∀ value ∈ finished.start, inside value) :
    ∀ step ∈ finished.steps, step.Stays inside := by
  have hrounds : ∀ step ∈ finished.rounds, step.Stays inside := by
    intro step hmem
    obtain ⟨k, hstep⟩ := List.mem_iff_getElem?.mp hmem
    obtain ⟨hbefore, _, _, _, _, _, _, hround⟩ := exists_playRound_of_run hrun hstep
    exact hblends.round_stays hkeeps harises hround
      (hblends.inside_of_states hkeeps harises hrun hstart hbefore)
  rcases steps_of_run hrun with ⟨_, hsteps⟩ | ⟨_, last, hsteps, hlast⟩
  · rw [hsteps]
    exact hrounds
  · rw [hsteps]
    intro step hmem
    rcases List.mem_append.mp hmem with hmem | hmem
    · exact hrounds step hmem
    · obtain rfl := List.mem_singleton.mp hmem
      refine hblends.end_stays hkeeps harises hlast ?_ ?_
      · rw [valuesAfter]
        cases hfinal : finished.rounds.getLast? with
        | none => exact hstart
        | some final => exact (hrounds final (List.mem_of_getLast? hfinal)).after
      · rw [lastInboxes]
        cases hfinal : finished.rounds.getLast? with
        | none =>
            intro id message hmessage
            rw [Option.map_none, Option.getD_none, Inboxes.get_empty] at hmessage
            cases hmessage
        | some final => exact (hrounds final (List.mem_of_getLast? hfinal)).received

/-- The final values keep what holds of all values before the last round. -/
theorem Experiment.Blends.final_stays (hblends : experiment.Blends blend)
    (hkeeps : blend.Keeps inside) (harises : KeptAsItArises inside) {finished : Run R}
    (hrun : run experiment seed tolerance = .ok finished) {last : Step R}
    (hlast : finished.rounds.getLast? = some last) (hbefore : ∀ value ∈ last.before, inside value) :
    ∀ value ∈ finished.finalValues, inside value := by
  have hat : finished.rounds[finished.rounds.length - 1]? = some last := by
    rw [← List.getLast?_eq_getElem?]
    exact hlast
  obtain ⟨_, _, _, _, _, _, _, hround⟩ := exists_playRound_of_run hrun hat
  have hstays := hblends.round_stays hkeeps harises hround hbefore
  rw [Run.finalValues]
  rcases steps_of_run hrun with ⟨_, hsteps⟩ | ⟨_, final, hsteps, hfinal⟩
  · rw [hsteps, valuesAfter, hlast]
    exact hstays.after
  · rw [hsteps, valuesAfter, List.getLast?_append, List.getLast?_singleton]
    rw [valuesAfter, lastInboxes, hlast] at hfinal
    exact (hblends.end_stays hkeeps harises hfinal hstays.after hstays.received).after

end LossyConsensus.Simulation
