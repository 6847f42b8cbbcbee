/-
# Longer runs

A round does not know how many more are to come, nor whether there is a phase at the
end.  So a run of more rounds begins as a run of fewer does, and a run without the phase
at the end is the run with it as far as its rounds go.
-/

import LossyConsensus.Proofs.Scalar.Exact
import LossyConsensus.Proofs.Simulation.Summary
import LossyConsensus.Trace.Record

namespace LossyConsensus

/-- A protocol without its phase at the end. -/
def Protocol.withoutEnd {R : Type} (protocol : Protocol R) : Protocol R :=
  { protocol with phases := protocol.phases.filter fun phase => !phase.isEnd }

namespace Simulation

open LossyConsensus.Network LossyConsensus.Protocol LossyConsensus.Random

variable {R : Type}

/-- An experiment without its phase at the end. -/
def Experiment.withoutEnd (experiment : Experiment R) : Experiment R :=
  { experiment with phases := experiment.roundPhases }

/-- Experiments that differ at most in the number of their rounds and in the phase at the
end. -/
structure Experiment.AlikeInRounds (experiment other : Experiment R) : Prop where
  phases : experiment.roundPhases = other.roundPhases
  rest : other = { experiment with rounds := other.rounds, phases := other.phases }

theorem Experiment.alikeInRounds_withoutEnd (experiment : Experiment R) :
    experiment.AlikeInRounds experiment.withoutEnd := by
  refine ⟨?_, rfl⟩
  rw [roundPhases, roundPhases, withoutEnd, roundPhases, List.filter_filter]
  simp only [Bool.and_self]

theorem Experiment.hasEnd_withoutEnd (experiment : Experiment R) :
    experiment.withoutEnd.hasEnd = false := by
  rw [hasEnd, withoutEnd, List.any_eq_false]
  intro phase hphase hend
  have hkept := (List.mem_filter.mp hphase).2
  rw [hend] at hkept
  cases hkept

variable [Scalar R]

/-- Two runs that are the same up to a round, as their summaries and their records show
it. -/
structure Run.AgreeUntil (tolerance : R) (first second : Run R) (round : Nat) : Prop where
  discrepancies : ∀ k ≤ round, ∃ apart,
    (first.summary tolerance).discrepancies[k]? = some apart ∧
      (second.summary tolerance).discrepancies[k]? = some apart
  delivered : ∀ k < round, ∃ count,
    (first.summary tolerance).deliveredPerRound[k]? = some count ∧
      (second.summary tolerance).deliveredPerRound[k]? = some count
  records : ∀ k < round, ∃ record : Trace.Record R,
    record.round = k + 1 ∧ record.isEnd = false ∧
      (Trace.ofRun tolerance first)[k]? = some record ∧
      (Trace.ofRun tolerance second)[k]? = some record

/-- A run without its phase at the end: nothing else of its summary and of its records is
missing. -/
structure Run.LacksEnd (experiment : Experiment R) (tolerance : R) (first second : Run R) :
    Prop where
  delivered : (second.summary tolerance).deliveredPerRound =
    (first.summary tolerance).deliveredPerRound
  records : Trace.ofRun tolerance second =
    (Trace.ofRun tolerance first).filter fun record => !record.isEnd
  discrepancies : (first.summary tolerance).discrepancies =
    (second.summary tolerance).discrepancies ++
      if experiment.hasEnd then [(first.summary tolerance).finalDiscrepancy] else []

variable {experiment other : Experiment R} {network : Network R} {seed : Int} {tolerance : R}

/-! ## Rounds -/

namespace Experiment.AlikeInRounds

variable (halike : experiment.AlikeInRounds other)

include halike

/-- Before the first round both experiments are the same. -/
theorem ofExperiment_eq : Network.ofExperiment other = Network.ofExperiment experiment := by
  rw [halike.rest]
  rfl

theorem initialValues_eq : initialValues other = initialValues experiment := by
  rw [halike.rest]
  rfl

/-- What a round does is the same in both. -/
theorem playRound_eq (network : Network R) (tolerance : R) (round : Nat) (values : List R)
    (generator : Generator) :
    playRound other network tolerance round values generator =
      playRound experiment network tolerance round values generator := by
  have hexchange : exchange other network values round generator =
      exchange experiment network values round generator := by
    rw [halike.rest]
    rfl
  have hcommit : ∀ inboxes next,
      commit other round inboxes values next = commit experiment round inboxes values next := by
    rw [halike.rest]
    exact fun _ _ => rfl
  simp only [playRound, hexchange, hcommit, Experiment.apply, halike.phases]

/-- So is what a number of rounds does. -/
theorem playRounds_eq (network : Network R) (tolerance : R) (count round : Nat) (values : List R)
    (generator : Generator) :
    playRounds other network tolerance count round values generator =
      playRounds experiment network tolerance count round values generator := by
  induction count generalizing round values generator with
  | zero => rfl
  | succ count ih => simp only [playRounds, halike.playRound_eq, ih]

end Experiment.AlikeInRounds

/-- Playing fewer rounds gives the first ones of more. -/
theorem playRounds_take {fewer more round : Nat} {values : List R} {generator : Generator}
    {steps : List (Step R)} (hle : fewer ≤ more)
    (h : playRounds experiment network tolerance more round values generator = .ok steps) :
    playRounds experiment network tolerance fewer round values generator =
      .ok (steps.take fewer) := by
  induction fewer generalizing more round values generator steps with
  | zero => rfl
  | succ fewer ih =>
      obtain ⟨rest, rfl⟩ := Nat.exists_eq_add_of_le' (Nat.lt_of_lt_of_le fewer.succ_pos hle)
      obtain ⟨first, next, later, hround, hlater, rfl⟩ := exists_of_playRounds h
      rw [playRounds, hround, ok_bind, List.take_succ_cons]
      exact bind_eq_ok.mpr ⟨_, ih (Nat.le_of_succ_le_succ hle) hlater, rfl⟩

/-! ## Runs -/

namespace Experiment.AlikeInRounds

variable {short long : Run R} (halike : experiment.AlikeInRounds other)
  (hle : experiment.rounds ≤ other.rounds) (hshort : run experiment seed tolerance = .ok short)
  (hlong : run other seed tolerance = .ok long)

include halike hle hshort hlong

/-- The rounds of a run are the first ones of a run with more of them. -/
theorem rounds_eq_take :
    short.start = long.start ∧ short.rounds = long.rounds.take experiment.rounds := by
  obtain ⟨network, generator, hnetwork, hgenerator, hstart, hrounds, _⟩ :=
    exists_playRounds_of_run hshort
  obtain ⟨network', generator', hnetwork', hgenerator', hstart', hrounds', _⟩ :=
    exists_playRounds_of_run hlong
  rw [halike.ofExperiment_eq, hnetwork] at hnetwork'
  rw [halike.initialValues_eq, hstart] at hstart'
  obtain rfl := Except.ok.inj hnetwork'
  obtain rfl := Except.ok.inj (hgenerator.symm.trans hgenerator')
  have hsame : short.start = long.start := Except.ok.inj hstart'
  rw [halike.playRounds_eq, ← hsame] at hrounds'
  exact ⟨hsame, Except.ok.inj (hrounds.symm.trans (playRounds_take hle hrounds'))⟩

/-- Each round of the shorter run is one of the longer run. -/
theorem exists_round {k : Nat} (hk : k < experiment.rounds) :
    ∃ step, short.rounds[k]? = some step ∧ long.rounds[k]? = some step := by
  obtain ⟨_, hrounds⟩ := halike.rounds_eq_take hle hshort hlong
  have hat : k < short.rounds.length := by rwa [(length_states_of_run hshort).1]
  refine ⟨_, List.getElem?_eq_getElem hat, ?_⟩
  rw [← List.getElem?_take_of_lt hk, ← hrounds]
  exact List.getElem?_eq_getElem hat

/-- So is each state. -/
theorem exists_state {k : Nat} (hk : k ≤ experiment.rounds) :
    ∃ held, short.states[k]? = some held ∧ long.states[k]? = some held := by
  cases k with
  | zero =>
      obtain ⟨hstart, _⟩ := halike.rounds_eq_take hle hshort hlong
      exact ⟨short.start, rfl, congrArg some hstart.symm⟩
  | succ k =>
      obtain ⟨step, hstep, hstep'⟩ := halike.exists_round hle hshort hlong hk
      exact ⟨step.after, (exists_playRound_of_run hshort hstep).2.1,
        (exists_playRound_of_run hlong hstep').2.1⟩

/-- So the runs agree until the shorter one has no more rounds. -/
theorem agreeUntil : Run.AgreeUntil tolerance short long experiment.rounds := by
  refine ⟨?_, ?_, ?_⟩
  · intro k hk
    obtain ⟨held, hheld, hheld'⟩ := halike.exists_state hle hshort hlong hk
    exact ⟨discrepancy held, getElem?_discrepancies_of_states hshort hheld,
      getElem?_discrepancies_of_states hlong hheld'⟩
  · intro k hk
    obtain ⟨step, hstep, hstep'⟩ := halike.exists_round hle hshort hlong hk
    refine ⟨step.delivered, ?_, ?_⟩
    · rw [Run.summary, List.getElem?_map, hstep, Option.map_some]
    · rw [Run.summary, List.getElem?_map, hstep', Option.map_some]
  · intro k hk
    obtain ⟨step, hstep, hstep'⟩ := halike.exists_round hle hshort hlong hk
    obtain ⟨_, _, _, _, _, _, _, hround⟩ := exists_playRound_of_run hshort hstep
    obtain ⟨hnumber, _, hisEnd, _⟩ := playRound_eq_ok hround
    refine ⟨Trace.Record.ofStep tolerance step, ?_, hisEnd, ?_, ?_⟩
    · change (step.round : Int) = k + 1
      rw [hnumber, Nat.cast_succ]
    · rw [Trace.ofRun, List.getElem?_map, getElem?_steps_of_rounds hshort hstep, Option.map_some]
    · rw [Trace.ofRun, List.getElem?_map, getElem?_steps_of_rounds hlong hstep', Option.map_some]

end Experiment.AlikeInRounds

/-- A run that finishes also does without its phase at the end, with the same rounds. -/
theorem run_withoutEnd {finished : Run R} (h : run experiment seed tolerance = .ok finished) :
    run experiment.withoutEnd seed tolerance =
      .ok { start := finished.start, steps := finished.rounds } := by
  obtain ⟨network, generator, hnetwork, hgenerator, hstart, hrounds, _⟩ :=
    exists_playRounds_of_run h
  have halike := experiment.alikeInRounds_withoutEnd
  rw [← halike.ofExperiment_eq] at hnetwork
  rw [← halike.initialValues_eq] at hstart
  rw [← halike.playRounds_eq] at hrounds
  rw [run, mapError_eq_ok.mpr hgenerator, ok_bind, hnetwork, ok_bind, hstart, ok_bind]
  refine bind_eq_ok.mpr ⟨finished.rounds, hrounds, ?_⟩
  rw [experiment.hasEnd_withoutEnd]
  rfl

/-- A run that finishes lacks nothing without its phase at the end but that phase. -/
theorem lacksEnd_of_run {finished : Run R} (h : run experiment seed tolerance = .ok finished) :
    Run.LacksEnd experiment tolerance finished
      { start := finished.start, steps := finished.rounds } := by
  have hrounds : Run.rounds { start := finished.start, steps := finished.rounds } =
      finished.rounds := by
    rw [Run.rounds, Run.rounds, List.filter_filter]
    simp only [Bool.and_self]
  refine ⟨?_, ?_, ?_⟩
  · rw [Run.summary, Run.summary, hrounds]
  · rw [Trace.ofRun, Trace.ofRun, Run.rounds, List.filter_map]
    rfl
  · rw [discrepancies_eq_map, discrepancies_eq_map]
    rcases steps_of_run h with ⟨hend, hsteps⟩ | ⟨hend, last, hsteps, _⟩
    · rw [hend, hsteps]
      exact (List.append_nil _).symm
    · have hfinal : (finished.summary tolerance).finalDiscrepancy = discrepancy last.after := by
        rw [Run.summary, Run.finalValues, valuesAfter, hsteps, List.getLast?_concat]
        rfl
      rw [hend, hfinal, hsteps, if_pos rfl, List.map_append, ← List.cons_append, List.map_append]
      rfl

/-! ## Protocols -/

section Protocols

variable {protocol : LossyConsensus.Protocol R} {p : R} {topology : Option (Topology R)}
  {faults : Option (Fault R)}

/-- The same protocol bound to two numbers of rounds. -/
theorem alikeInRounds_of_ofProtocol {fewer more : Int} {short long : Experiment R}
    (hshort : Experiment.ofProtocol protocol p fewer topology faults = .ok short)
    (hlong : Experiment.ofProtocol protocol p more topology faults = .ok long) :
    short.AlikeInRounds long := by
  obtain ⟨leader, hleader, _, _, rfl⟩ := ofProtocol_eq_ok_iff.mp hshort
  obtain ⟨leader', hleader', _, _, rfl⟩ := ofProtocol_eq_ok_iff.mp hlong
  obtain rfl := Except.ok.inj (hleader.symm.trans hleader')
  exact ⟨rfl, rfl⟩

/-- What can be bound can be bound without its phase at the end. -/
theorem ofProtocol_withoutEnd {rounds : Int}
    (h : Experiment.ofProtocol protocol p rounds topology faults = .ok experiment) :
    Experiment.ofProtocol protocol.withoutEnd p rounds topology faults =
      .ok experiment.withoutEnd := by
  obtain ⟨leader, hleader, hp, hrounds, rfl⟩ := ofProtocol_eq_ok_iff.mp h
  exact ofProtocol_eq_ok_iff.mpr ⟨leader, hleader, hp, hrounds, rfl⟩

/-- Longer runs extend shorter ones.  Bind a protocol to two numbers of rounds, all else
being the same, and let both finish from one seed.  As far as the smaller number goes,
the discrepancies, the counts of messages delivered and the records of the rounds
coincide.

The phase at the end only adds to a run.  A run that finishes does so without it too,
with the same counts of messages and the same records of all rounds, and with the same
discrepancies but for the last one, which that phase has added. -/
theorem longer_runs_extend_shorter (protocol : LossyConsensus.Protocol R) (p : R)
    (topology : Option (Topology R)) (faults : Option (Fault R)) (seed : Int) (tolerance : R) :
    (∀ (fewer more : Int) (short long : Experiment R) (first second : Run R), fewer ≤ more →
      Experiment.ofProtocol protocol p fewer topology faults = .ok short →
      Experiment.ofProtocol protocol p more topology faults = .ok long →
      run short seed tolerance = .ok first → run long seed tolerance = .ok second →
      Run.AgreeUntil tolerance first second fewer.toNat) ∧
    ∀ (rounds : Int) (experiment : Experiment R) (finished : Run R),
      Experiment.ofProtocol protocol p rounds topology faults = .ok experiment →
      run experiment seed tolerance = .ok finished →
      ∃ bare without, bare.hasEnd = false ∧
        Experiment.ofProtocol protocol.withoutEnd p rounds topology faults = .ok bare ∧
        run bare seed tolerance = .ok without ∧
        Run.LacksEnd experiment tolerance finished without := by
  refine ⟨?_, ?_⟩
  · intro fewer more short long first second hle hshort hlong hfirst hsecond
    have hfewer : short.rounds = fewer.toNat := (ofProtocol_eq_ok hshort).2.2.2.2
    have hmore : long.rounds = more.toNat := (ofProtocol_eq_ok hlong).2.2.2.2
    have hcount : short.rounds ≤ long.rounds := by omega
    exact hfewer ▸ (alikeInRounds_of_ofProtocol hshort hlong).agreeUntil hcount hfirst hsecond
  · intro rounds experiment finished hbind hrun
    exact ⟨experiment.withoutEnd, _, experiment.hasEnd_withoutEnd, ofProtocol_withoutEnd hbind,
      run_withoutEnd hrun, lacksEnd_of_run hrun⟩

end Protocols

/-- Three processes that take averages until they agree, and the greatest value they have
received at the end. -/
def driftingTrio : LossyConsensus.Protocol ℚ where
  name := "drifting trio"
  processes := 3
  initial := .values [0, 3, 9]
  phases := [{ kind := .untilConsensus, rule := .ifDifferent (.aggregate .avg true) .own },
    { kind := .atEnd, rule := .combine .max }]
  metrics := .both
  settings := []
  models := [{ kind := .standard }]
  stateVar := "x"
  domain := none

/-- The drifting trio bound to a probability of one half and a number of rounds, on a
ring from which the third process is cut off after the first round. -/
def driftingOnRing (rounds : Nat) : Experiment ℚ where
  name := "drifting trio"
  processes := 3
  rounds := rounds
  p := 1 / 2
  phases := driftingTrio.phases
  leader := none
  parameters := []
  initial := .values [0, 3, 9]
  models := [{ kind := .standard }]
  channel := .guarantee .none
  topology := some .ring
  faults := some (.partition 2 0 [[1, 2], [3]])

/-- One round of the drifting trio and three of them: what follows the first round is the
phase at the end in one run, which drives the values apart, and another round in the
other.  Without that phase the run of one round ends with the first round. -/
theorem driftingTrio_extends : ∃ first second bare without,
    Experiment.ofProtocol driftingTrio (1 / 2) 1 (some .ring)
      (some (.partition 2 0 [[1, 2], [3]])) = .ok (driftingOnRing 1) ∧
    Experiment.ofProtocol driftingTrio (1 / 2) 3 (some .ring)
      (some (.partition 2 0 [[1, 2], [3]])) = .ok (driftingOnRing 3) ∧
    run (driftingOnRing 1) 5 0 = .ok first ∧ run (driftingOnRing 3) 5 0 = .ok second ∧
    (first.summary 0).discrepancies = [9, 3 / 2, 3] ∧
    (second.summary 0).discrepancies = [9, 3 / 2, 3 / 4, 3 / 4, 3 / 4] ∧
    Run.AgreeUntil 0 first second 1 ∧
    run bare 5 0 = .ok without ∧ Run.LacksEnd (driftingOnRing 1) 0 first without := by
  have hbind : ∀ rounds : Nat, Experiment.ofProtocol driftingTrio (1 / 2) rounds (some .ring)
      (some (.partition 2 0 [[1, 2], [3]])) = .ok (driftingOnRing rounds) := fun rounds =>
    ofProtocol_eq_ok_iff.mpr ⟨none, rfl, by decide +kernel, Int.natCast_nonneg rounds, rfl⟩
  have hplays : (run (driftingOnRing 1) 5 0).map (fun finished =>
      (finished.summary 0).discrepancies) = .ok [9, 3 / 2, 3] := by decide +kernel
  have hplays' : (run (driftingOnRing 3) 5 0).map (fun finished =>
      (finished.summary 0).discrepancies) = .ok [9, 3 / 2, 3 / 4, 3 / 4, 3 / 4] := by
    decide +kernel
  obtain ⟨first, hfirst, hshown⟩ := map_eq_ok.mp hplays
  obtain ⟨second, hsecond, hshown'⟩ := map_eq_ok.mp hplays'
  obtain ⟨hextends, hlacks⟩ := longer_runs_extend_shorter driftingTrio (1 / 2) (some .ring)
    (some (.partition 2 0 [[1, 2], [3]])) 5 0
  obtain ⟨bare, without, _, _, hwithout, hlacksEnd⟩ := hlacks 1 _ first (hbind 1) hfirst
  exact ⟨first, second, bare, without, hbind 1, hbind 3, hfirst, hsecond, hshown, hshown',
    hextends 1 3 _ _ first second (by decide) (hbind 1) (hbind 3) hfirst hsecond, hwithout,
    hlacksEnd⟩

end Simulation

end LossyConsensus
