/-
# Traced runs of a sweep

Traced runs are told apart by their seeds.  The points of a sweep take their seeds from
starts that lie one apart, so two points may trace runs from one seed; what stands
together under a seed then are the records of several runs, one after the other, and
no longer such as a single run leaves behind.  A single point never traces a seed
twice, and points that demand no messages and trace one run each trace different ones.
-/

import LossyConsensus.Proofs.Sampling.Gain
import LossyConsensus.Proofs.Sampling.Shape
import LossyConsensus.Proofs.Simulation.Visit

namespace LossyConsensus

open LossyConsensus.Network LossyConsensus.Simulation

variable {R : Type}

namespace Trace

/-- Records such as a single run leaves behind: one for each round, counted from one,
then at most one of the phase at the end, and each starts from the values that the one
before it has left. -/
structure IsOneRun (rounds : Nat) (records : List (Record R)) : Prop where
  parts : ∃ (played : List (Record R)) (last : Option (Record R)),
    records = played ++ last.toList ∧
    (∀ record ∈ played, record.isEnd = false) ∧ (∀ record ∈ last, record.isEnd = true) ∧
    played.map (·.round) = (List.range rounds).map fun (k : Nat) => (k : Int) + 1
  chain : records.IsChain fun earlier later => later.before = earlier.after

variable {rounds : Nat} {records : List (Record R)}

/-- The records of a single run hold each round once and the phase at the end at most
once. -/
theorem IsOneRun.counts (h : IsOneRun rounds records) :
    records.countP (fun record => !record.isEnd) = rounds ∧
      records.countP (fun record => record.isEnd) ≤ 1 := by
  obtain ⟨played, last, rfl, hplayed, hlast, hnumbers⟩ := h.parts
  have hcount : played.length = rounds := by
    simpa using congrArg List.length hnumbers
  have hrounds : played.countP (fun record => !record.isEnd) = rounds := by
    rw [← hcount, List.countP_eq_length]
    intro record hrecord
    rw [hplayed record hrecord]
    rfl
  have hends : played.countP (fun record => record.isEnd) = 0 := by
    rw [List.countP_eq_zero]
    intro record hrecord
    rw [hplayed record hrecord]
    exact Bool.false_ne_true
  rw [List.countP_append, List.countP_append, hrounds, hends]
  cases last with
  | none => exact ⟨rfl, Nat.zero_le 1⟩
  | some record =>
      have hend := hlast record rfl
      simp [hend]

/-- Records of several runs, one after the other, are such as a single run leaves
behind only if there is just one run. -/
theorem length_eq_one_of_isOneRun {lists : List (List (Record R))} (hne : lists ≠ [])
    (hlists : ∀ records ∈ lists, records ≠ [] ∧ IsOneRun rounds records)
    (h : IsOneRun rounds lists.flatten) : lists.length = 1 := by
  match lists, hne with
  | [only], _ => rfl
  | first :: second :: rest, _ =>
      obtain ⟨⟨hfirst, hone⟩, hlists⟩ := List.forall_mem_cons.mp hlists
      obtain ⟨⟨hsecond, htwo⟩, _⟩ := List.forall_mem_cons.mp hlists
      have hone := hone.counts
      have htwo := htwo.counts
      have hall := h.counts
      -- With two runs no round is left to count, so each of them has a record of its end.
      have hsplit := List.length_eq_countP_add_countP (l := first) fun record => record.isEnd
      have hsplit' := List.length_eq_countP_add_countP (l := second) fun record => record.isEnd
      have hpos := List.length_pos_iff.mpr hfirst
      have hpos' := List.length_pos_iff.mpr hsecond
      simp only [List.flatten_cons, List.countP_append, Bool.not_eq_true,
        Bool.decide_eq_false] at hall hsplit hsplit'
      omega

variable [Scalar R] {experiment : Experiment R} {seed : Int} {tolerance : R} {finished : Run R}

/-- The records of a run that ends are such as a single run leaves behind. -/
theorem isOneRun_ofRun (h : run experiment seed tolerance = .ok finished) :
    IsOneRun experiment.rounds (ofRun tolerance finished) := by
  have hrounds : ∀ record ∈ finished.rounds.map (Record.ofStep tolerance),
      record.isEnd = false := by
    intro record hrecord
    obtain ⟨step, hstep, rfl⟩ := List.mem_map.mp hrecord
    exact (Bool.not_eq_true' _).mp (List.mem_filter.mp hstep).2
  have hnumbers : (finished.rounds.map (Record.ofStep tolerance)).map (·.round) =
      (List.range experiment.rounds).map fun (k : Nat) => (k : Int) + 1 := by
    have hcount := (length_states_of_run h).1
    refine List.ext_getElem (by simp [hcount]) ?_
    intro k hk _
    rw [List.length_map, List.length_map] at hk
    have hplayed := played_of_run h (getElem?_steps_of_rounds h (List.getElem?_eq_getElem hk))
    rw [List.getElem_map, List.getElem_map, List.getElem_map, List.getElem_range]
    change (finished.rounds[k].round : Int) = k + 1
    rw [hplayed.number, Nat.cast_succ]
  refine ⟨?_, ?_⟩
  · rcases steps_of_run h with ⟨_, hsteps⟩ | ⟨_, last, hsteps, hlast⟩
    · refine ⟨_, none, ?_, hrounds, fun _ h => (Option.not_mem_none _ h).elim, hnumbers⟩
      rw [ofRun, hsteps, Option.toList_none, List.append_nil]
    · refine ⟨_, some (Record.ofStep tolerance last), ?_, hrounds, ?_, hnumbers⟩
      · rw [ofRun, hsteps, List.map_append, Option.toList_some, List.map_singleton]
      · rintro record ⟨⟩
        exact isEnd_of_playEnd hlast
  · rw [List.isChain_iff_getElem]
    intro k hk
    rw [ofRun, List.length_map] at hk
    have hnext := getElem?_states_of_step h (List.getElem?_eq_getElem hk)
    rw [List.getElem?_cons_succ, List.getElem?_map,
      List.getElem?_eq_getElem (Nat.lt_of_succ_lt hk)] at hnext
    simp only [ofRun, List.getElem_map]
    exact (Option.some.inj hnext).symm

end Trace

namespace Sampling

/-! ## Records by seed -/

/-- The traced runs of a seed that left records. -/
def recordedFrom (seed : Int) (runs : List (TracedRun R)) : List (TracedRun R) :=
  runs.filter fun run => run.seed == seed && !run.records.isEmpty

theorem mem_recordedFrom {seed : Int} {runs : List (TracedRun R)} {run : TracedRun R} :
    run ∈ recordedFrom seed runs ↔ run ∈ runs ∧ run.seed = seed ∧ run.records ≠ [] := by
  simp [recordedFrom]

/-- What stands together under a seed are the records of all runs from it, one after
the other. -/
theorem mem_bySeed {runs : List (TracedRun R)} {group : TracedRun R} :
    group ∈ bySeed runs ↔ recordedFrom group.seed runs ≠ [] ∧
      group.records = (recordedFrom group.seed runs).flatMap (·.records) := by
  have hkept : ∀ seed, (runs.filter fun run => !run.records.isEmpty).filter (·.seed == seed) =
      recordedFrom seed runs := by
    intro seed
    rw [List.filter_filter, recordedFrom]
  rw [bySeed, List.mem_map]
  simp only [List.mem_eraseDups, hkept]
  constructor
  · rintro ⟨seed, hseed, rfl⟩
    obtain ⟨run, hrun, rfl⟩ := List.mem_map.mp hseed
    obtain ⟨hmem, hrecords⟩ := List.mem_filter.mp hrun
    refine ⟨List.ne_nil_of_mem (mem_recordedFrom.mpr ⟨hmem, rfl, ?_⟩), rfl⟩
    simpa using hrecords
  · rintro ⟨hne, hrecords⟩
    obtain ⟨run, hrun⟩ := List.exists_mem_of_ne_nil _ hne
    obtain ⟨hmem, hseed, hsome⟩ := mem_recordedFrom.mp hrun
    refine ⟨group.seed, List.mem_map.mpr ⟨run, List.mem_filter.mpr ⟨hmem, ?_⟩, hseed⟩, ?_⟩
    · simpa using hsome
    · rw [← hrecords]

/-- Of runs from different seeds no two stand together. -/
theorem mem_of_mem_bySeed {runs : List (TracedRun R)} (hseeds : (runs.map (·.seed)).Nodup)
    {group : TracedRun R} (h : group ∈ bySeed runs) : group ∈ runs := by
  obtain ⟨hne, hrecords⟩ := mem_bySeed.mp h
  have hsame : ((recordedFrom group.seed runs).map (·.seed)) =
      List.replicate (recordedFrom group.seed runs).length group.seed := by
    rw [List.eq_replicate_iff, List.length_map]
    refine ⟨rfl, ?_⟩
    intro seed hseed
    obtain ⟨run, hrun, rfl⟩ := List.mem_map.mp hseed
    exact (mem_recordedFrom.mp hrun).2.1
  have hfew : (recordedFrom group.seed runs).length ≤ 1 := by
    rw [← List.nodup_replicate (a := group.seed), ← hsame]
    exact hseeds.sublist (List.filter_sublist.map _)
  have hsome := List.length_pos_iff.mpr hne
  obtain ⟨run, honly⟩ := List.length_eq_one_iff.mp (Nat.le_antisymm hfew hsome)
  obtain ⟨hmem, hseed, _⟩ := mem_recordedFrom.mp (honly ▸ List.mem_singleton_self run)
  rw [honly, List.flatMap_singleton] at hrecords
  obtain ⟨seed, records⟩ := group
  obtain rfl : run.seed = seed := hseed
  obtain rfl : records = run.records := hrecords
  exact hmem

/-! ## Seeds of one point -/

theorem takeBefore_sublist {α : Type} (bound : Int) (items : List α) :
    (takeBefore bound items).Sublist items := by
  rw [takeBefore]
  split
  · exact List.take_sublist _ _
  · exact List.take_sublist _ _

theorem nodup_seedsFrom (first : Int) (count : Nat) : (seedsFrom first count).Nodup := by
  refine List.nodup_range.map ?_
  intro k k' (h : first + (k : Int) = first + (k' : Int))
  omega

theorem le_of_mem_seedsFrom {first seed : Int} {count : Nat} (h : seed ∈ seedsFrom first count) :
    first ≤ seed := by
  obtain ⟨k, _, rfl⟩ := List.mem_map.mp h
  omega

variable [Scalar R]

variable {experiment : Experiment R} {config : Config R} {limit : Int} {trial : Trial R}

/-- Runs that are replayed keep their seeds, and their records are those of the runs. -/
theorem runs_of_replay {seeds : List Int} {runs : List (TracedRun R)}
    (h : replay experiment config seeds = .ok runs) :
    (∀ run ∈ runs, ∃ finished,
      Simulation.run experiment run.seed config.tolerance = .ok finished ∧
        run.records = Trace.ofRun config.tolerance finished) ∧
    runs.map (·.seed) = seeds := by
  rw [replay, mapM_eq_ok] at h
  induction h with
  | nil => exact ⟨fun run hrun => (List.not_mem_nil hrun).elim, rfl⟩
  | cons hfirst _ ih =>
      obtain ⟨finished, hrun, hrecord⟩ := bind_eq_ok.mp hfirst
      obtain rfl := pure_eq_ok.mp hrecord
      obtain ⟨hruns, hseeds⟩ := ih
      exact ⟨List.forall_mem_cons.mpr ⟨⟨finished, hrun, rfl⟩, hruns⟩, by rw [List.map_cons, hseeds]⟩

/-- A trial traces runs of its experiment, each from another seed, and none from a
seed before its first one. -/
theorem traced_of_sample (h : sample experiment config limit = .ok trial) :
    (∀ run ∈ trial.traced, ∃ finished,
      Simulation.run experiment run.seed config.tolerance = .ok finished ∧
        run.records = Trace.ofRun config.tolerance finished) ∧
    (trial.traced.map (·.seed)).Nodup ∧ ∀ run ∈ trial.traced, config.seed ≤ run.seed := by
  obtain ⟨assignment, found, _, hscan, _, hreplay⟩ := sample_parts h
  obtain ⟨hruns, hseeds⟩ := runs_of_replay hreplay
  have hvalid : (trial.traced.map (·.seed)).Sublist (seedsFrom config.seed found.attempts) := by
    rw [hseeds]
    refine (takeBefore_sublist limit _).trans ?_
    rw [(ended_of_scanRuns hscan).finds.tried]
    exact List.filter_sublist
  refine ⟨hruns, (nodup_seedsFrom _ _).sublist hvalid, ?_⟩
  intro run hrun
  exact le_of_mem_seedsFrom (hvalid.subset (List.mem_map_of_mem hrun))

/-- A trial that demands no messages and traces at most one run traces that of its
first seed. -/
theorem seed_eq_of_traced (h : sample experiment config limit = .ok trial)
    {assignment : Assignment} (hassignment : assignmentOf experiment = .ok assignment)
    (hnone : assignment.demands = false) (hlimit : limit = 0 ∨ limit = 1) :
    ∀ run ∈ trial.traced, run.seed = config.seed := by
  obtain ⟨other, found, hother, hscan, _, hreplay⟩ := sample_parts h
  obtain rfl := Except.ok.inj (hassignment.symm.trans hother)
  obtain ⟨_, hseeds⟩ := runs_of_replay hreplay
  rw [(valid_of_scanRuns hnone hscan).1] at hseeds
  intro run hrun
  have hmem : run.seed ∈ takeBefore limit (seedsFrom config.seed config.repetitions.toNat) :=
    hseeds ▸ List.mem_map_of_mem hrun
  rcases hlimit with rfl | rfl
  · cases hmem
  · rw [takeBefore, if_pos (by decide)] at hmem
    cases hcount : config.repetitions.toNat with
    | zero =>
        rw [hcount] at hmem
        cases hmem
    | succ count =>
        rw [hcount, seedsFrom, List.range_succ_eq_map, List.map_cons] at hmem
        simpa using hmem

/-! ## Sweeps -/

variable {protocol : LossyConsensus.Protocol R} {settings : SweepSettings R} {p : R}
  {point : Point R}

/-- No process of a protocol has a delivery model that demands messages. -/
def DemandsNothing (protocol : LossyConsensus.Protocol R) : Prop :=
  ∀ assignment, Assignment.ofSpecs protocol.models protocol.processes = .ok assignment →
    assignment.demands = false

/-- A traced run of a sweep: a run of the protocol bound to the probability of one of
the points, with its own records. -/
def Sweep.Traces (sweep : Sweep R) (protocol : LossyConsensus.Protocol R)
    (settings : SweepSettings R) (run : TracedRun R) : Prop :=
  ∃ point ∈ sweep.points, run ∈ point.trial.traced ∧ ∃ experiment finished,
    Experiment.ofProtocol protocol point.p settings.rounds settings.topology settings.faults =
      .ok experiment ∧
    Simulation.run experiment run.seed settings.config.tolerance = .ok finished ∧
    run.records = Trace.ofRun settings.config.tolerance finished

theorem assignmentOf_of_ofProtocol {rounds : Int} {topology : Option (Topology R)}
    {faults : Option (Fault R)}
    (h : Experiment.ofProtocol protocol p rounds topology faults = .ok experiment) :
    assignmentOf experiment =
      (Assignment.ofSpecs protocol.models protocol.processes).mapError .model := by
  obtain ⟨leader, _, _, _, rfl⟩ := ofProtocol_eq_ok_iff.mp h
  rfl

theorem seed_eq_of_samplePoint (hnone : DemandsNothing protocol)
    (hlimit : settings.limit = 0 ∨ settings.limit = 1) {seed : Int}
    (h : samplePoint protocol settings p seed = .ok point) :
    ∀ run ∈ point.trial.traced, run.seed = seed := by
  obtain ⟨_, experiment, hbound, htrial⟩ := samplePoint_eq_ok h
  obtain ⟨assignment, _, hassignment, _⟩ := sample_parts htrial
  have hmodels := hassignment
  rw [assignmentOf_of_ofProtocol hbound, mapError_eq_ok] at hmodels
  exact seed_eq_of_traced htrial hassignment (hnone assignment hmodels) hlimit

/-- The seeds traced by a sweep whose points trace no seed but their first one. -/
theorem nodup_traced_of_sweepFrom (hnone : DemandsNothing protocol)
    (hlimit : settings.limit = 0 ∨ settings.limit = 1) (seed : Int) (ps : List R) :
    ((sweepFrom protocol settings seed ps).traced.map (·.seed)).Nodup ∧
      ∀ run ∈ (sweepFrom protocol settings seed ps).traced, seed ≤ run.seed := by
  induction ps generalizing seed with
  | nil => exact ⟨List.nodup_nil, fun run hrun => (List.not_mem_nil hrun).elim⟩
  | cons p rest ih =>
      rw [sweepFrom]
      cases hpoint : samplePoint protocol settings p seed with
      | error error => exact ⟨List.nodup_nil, fun run hrun => (List.not_mem_nil hrun).elim⟩
      | ok point =>
          obtain ⟨_, experiment, _, htrial⟩ := samplePoint_eq_ok hpoint
          obtain ⟨_, hnodup, _⟩ := traced_of_sample htrial
          obtain ⟨hrest, hlater⟩ := ih (seed + 1)
          have hfirst := seed_eq_of_samplePoint hnone hlimit hpoint
          rw [Sweep.traced, List.flatMap_cons, ← Sweep.traced]
          refine ⟨?_, ?_⟩
          · rw [List.map_append, List.nodup_append]
            refine ⟨hnodup, hrest, ?_⟩
            intro one hone other hother heq
            obtain ⟨run, hrun, rfl⟩ := List.mem_map.mp hone
            obtain ⟨run', hrun', rfl⟩ := List.mem_map.mp hother
            have := hfirst run hrun
            have := hlater run' hrun'
            omega
          · intro run hrun
            rcases List.mem_append.mp hrun with hrun | hrun
            · exact (hfirst run hrun).ge
            · have := hlater run hrun
              omega

/-- A sweep over a single probability traces no seed twice. -/
theorem nodup_traced_of_length_le_one {ps : List R} (h : ps.length ≤ 1) :
    ((sweep protocol settings ps).traced.map (·.seed)).Nodup := by
  match ps, h with
  | [], _ => exact List.nodup_nil
  | [p], _ =>
      rw [sweep, sweepFrom]
      cases hpoint : samplePoint protocol settings p settings.config.seed with
      | error error => exact List.nodup_nil
      | ok point =>
          obtain ⟨_, experiment, _, htrial⟩ := samplePoint_eq_ok hpoint
          rw [Sweep.traced, sweepFrom, List.flatMap_singleton]
          exact (traced_of_sample htrial).2.1

/-- Every traced run of a sweep is one of its points, and its records are such as a
single run leaves behind. -/
theorem traces_of_mem_traced {ps : List R} {run : TracedRun R}
    (h : run ∈ (sweep protocol settings ps).traced) :
    (sweep protocol settings ps).Traces protocol settings run ∧
      Trace.IsOneRun settings.rounds.toNat run.records := by
  obtain ⟨point, hpoint, hrun⟩ := List.mem_flatMap.mp h
  obtain ⟨seed, hsampled⟩ :=
    (points_of_sweepFrom protocol settings settings.config.seed ps).1 point hpoint
  obtain ⟨_, experiment, hbound, htrial⟩ := samplePoint_eq_ok hsampled
  obtain ⟨finished, hfinished, hrecords⟩ := (traced_of_sample htrial).1 run hrun
  refine ⟨⟨point, hpoint, hrun, experiment, finished, hbound, hfinished, hrecords⟩, ?_⟩
  rw [hrecords, ← (ofProtocol_eq_ok hbound).2.2.2.2]
  exact Trace.isOneRun_ofRun hfinished

/-- How the records of a sweep stand together.  Each run that is traced is a run of one
of its points, and its records are such as a single run leaves behind: those of the
rounds in order, at most one of the phase at the end, each starting from the values that
the one before it has left.  What stands together under a seed are the records of all
traced runs from this seed, one run after the other, and they are such as a single run
leaves behind exactly if there is just one.  So it is for all seeds if there is at most
one probability, or if no process demands messages and no more than one run is traced
at each point. -/
theorem records_stand_together_by_seed (protocol : LossyConsensus.Protocol R)
    (settings : SweepSettings R) (ps : List R) :
    (∀ run ∈ (sweep protocol settings ps).traced,
      (sweep protocol settings ps).Traces protocol settings run ∧
        Trace.IsOneRun settings.rounds.toNat run.records) ∧
    (∀ group ∈ bySeed (sweep protocol settings ps).traced,
      group.records =
        (recordedFrom group.seed (sweep protocol settings ps).traced).flatMap (·.records) ∧
      (Trace.IsOneRun settings.rounds.toNat group.records ↔
        (recordedFrom group.seed (sweep protocol settings ps).traced).length = 1)) ∧
    (ps.length ≤ 1 ∨ DemandsNothing protocol ∧ (settings.limit = 0 ∨ settings.limit = 1) →
      ∀ group ∈ bySeed (sweep protocol settings ps).traced,
        group ∈ (sweep protocol settings ps).traced) := by
  refine ⟨fun run hrun => traces_of_mem_traced hrun, ?_, ?_⟩
  · intro group hgroup
    obtain ⟨hne, hrecords⟩ := mem_bySeed.mp hgroup
    refine ⟨hrecords, ?_⟩
    have heach : ∀ run ∈ recordedFrom group.seed (sweep protocol settings ps).traced,
        run.records ≠ [] ∧ Trace.IsOneRun settings.rounds.toNat run.records := by
      intro run hrun
      obtain ⟨hmem, _, hsome⟩ := mem_recordedFrom.mp hrun
      exact ⟨hsome, (traces_of_mem_traced hmem).2⟩
    constructor
    · intro hone
      rw [hrecords, List.flatMap_def] at hone
      rw [← List.length_map (·.records)]
      refine Trace.length_eq_one_of_isOneRun (by simpa using hne) ?_ hone
      intro records hmem
      obtain ⟨run, hrun, rfl⟩ := List.mem_map.mp hmem
      exact heach run hrun
    · intro hsingle
      obtain ⟨run, honly⟩ := List.length_eq_one_iff.mp hsingle
      rw [hrecords, honly, List.flatMap_singleton]
      exact (heach run (honly ▸ List.mem_singleton_self run)).2
  · rintro (hfew | ⟨hnone, hlimit⟩) group hgroup
    · exact mem_of_mem_bySeed (nodup_traced_of_length_le_one hfew) hgroup
    · exact mem_of_mem_bySeed (nodup_traced_of_sweepFrom hnone hlimit _ ps).1 hgroup

/-- Two processes that take the average of what they know. -/
def calmPair : LossyConsensus.Protocol Float where
  name := "calm pair"
  processes := 2
  initial := .values [Scalar.zero, Scalar.ofNat 1]
  phases := [{ kind := .eachRound, rule := .combine .average }]
  metrics := .both
  settings := [("channel_guarantee", .guarantee .none)]
  models := [{ kind := .standard }]
  stateVar := "x"
  domain := none

/-- One round of the calm pair at each probability, two runs of it wanted from seed 1 on,
of which `limit` are traced. -/
def calmSettings (limit : Int) : SweepSettings Float where
  rounds := 1
  config := { repetitions := 2, seed := 1, tolerance := Scalar.zero }
  topology := none
  faults := none
  limit := limit

/-- If one run is traced at each of two probabilities, the two runs stand apart. -/
theorem calmPair_records_stand_apart :
    (bySeed (sweep calmPair (calmSettings 1) [Scalar.zero, Scalar.ofNat 1]).traced).map (·.seed) =
      [1, 2] ∧
    ∀ group ∈ bySeed (sweep calmPair (calmSettings 1) [Scalar.zero, Scalar.ofNat 1]).traced,
      group ∈ (sweep calmPair (calmSettings 1) [Scalar.zero, Scalar.ofNat 1]).traced ∧
      Trace.IsOneRun 1 group.records := by
  obtain ⟨hruns, _, hapart⟩ := records_stand_together_by_seed calmPair (calmSettings 1)
    [Scalar.zero, Scalar.ofNat 1]
  have hnone : DemandsNothing calmPair := by
    intro assignment h
    cases h
    decide
  refine ⟨by decide +kernel, fun group hgroup => ?_⟩
  have hmem := hapart (.inr ⟨hnone, .inr rfl⟩) group hgroup
  exact ⟨hmem, (hruns group hmem).2⟩

/-- If two runs are traced at each of two probabilities, the second run at the first one
and the first run at the second one share their seed, and what stands together there are
the records of both: the first round comes twice. -/
theorem sweep_mixes_runs_of_one_seed :
    ∃ group ∈ bySeed (sweep calmPair (calmSettings 2) [Scalar.zero, Scalar.ofNat 1]).traced,
      group.seed = 2 ∧ group.records.map (·.round) = [1, 1] ∧
      ¬ Trace.IsOneRun 1 group.records := by
  have hrounds : (bySeed (sweep calmPair (calmSettings 2)
      [Scalar.zero, Scalar.ofNat 1]).traced).map (fun group => (group.seed,
        group.records.map fun record => (record.round, record.isEnd))) =
      [(1, [(1, false)]), (2, [(1, false), (1, false)]), (3, [(1, false)])] := by
    decide +kernel
  have hmem : (2, [((1 : Int), false), (1, false)]) ∈ (bySeed (sweep calmPair (calmSettings 2)
      [Scalar.zero, Scalar.ofNat 1]).traced).map (fun group => (group.seed,
        group.records.map fun record => (record.round, record.isEnd))) := by
    rw [hrounds]
    decide
  obtain ⟨group, hgroup, heq⟩ := List.mem_map.mp hmem
  obtain ⟨hseed, hrecords⟩ := Prod.mk.inj heq
  refine ⟨group, hgroup, hseed, ?_, ?_⟩
  · have hnumbers := congrArg (List.map Prod.fst) hrecords
    rw [List.map_map] at hnumbers
    exact hnumbers
  · intro hone
    have hcount := congrArg (List.countP fun entry => !entry.2) hrecords
    rw [List.countP_map] at hcount
    exact absurd (hone.counts.1.symm.trans hcount) (by decide)

end Sampling

end LossyConsensus
