/-
# What the records of a run tell

The records of a run, the history and the digest made of them, and the summary of
the run are computed apart from each other, but from the same steps.  So they agree:
about the states that the run goes through, about how far the values lie apart and
when they first agree, about the messages that are delivered, and about what a
process has received that differs from its own value.
-/

import LossyConsensus.Proofs.Scalar.Exact
import LossyConsensus.Proofs.Simulation.Summary
import LossyConsensus.Proofs.Simulation.Visit
import LossyConsensus.Trace.Digest
import Mathlib.Algebra.BigOperators.Ring.Finset

namespace LossyConsensus.Trace

open LossyConsensus.Network LossyConsensus.Protocol LossyConsensus.Simulation

variable {R : Type} [Scalar R] {experiment : Experiment R} {seed : Int} {tolerance : R}
  {finished : Run R}

/-- After a round the values lie apart by no more than the tolerance, as the summary
of the run has it. -/
def AgreesAfter (experiment : Experiment R) (tolerance : R) (summary : Summary R)
    (round : Nat) : Prop :=
  1 ≤ round ∧ round ≤ experiment.rounds ∧
    ∃ value, summary.discrepancies[round]? = some value ∧ Scalar.le value tolerance = true

/-- What the digest of records tells of a run. -/
structure Digest.Tells (experiment : Experiment R) (tolerance : R) (summary : Summary R)
    (digest : Digest R) : Prop where
  delivered : digest.delivered = summary.totalDelivered
  possible : digest.delivered ≤ digest.possible
  final : digest.final = summary.finalDiscrepancy
  consensus : ∀ round : Int, digest.consensusRound = some round ↔
    ∃ first : Nat, round = first ∧ IsLeast {k | AgreesAfter experiment tolerance summary k} first
  noConsensus : digest.consensusRound = none ↔
    ∀ round, ¬ AgreesAfter experiment tolerance summary round

/-- What the records of a run tell of it. -/
structure Tells (experiment : Experiment R) (seed : Int) (tolerance : R) (summary : Summary R)
    (records : List (Record R)) : Prop where
  count : records.length = experiment.rounds + if experiment.hasEnd then 1 else 0
  numbers : ∀ (k : Nat) (record : Record R), records[k]? = some record → record.round = k + 1
  states : ∃ start, initialValues experiment = .ok start ∧
    ∀ (k : Nat) (record : Record R), records[k]? = some record →
      (start :: records.map (·.after))[k]? = some record.before
  last : ∀ record, records.getLast? = some record → record.after = summary.finalValues
  history : records ≠ [] → (history records).map Simulation.discrepancy = summary.discrepancies
  digest : records ≠ [] →
    ∃ digest, Trace.digest records = .ok digest ∧ digest.Tells experiment tolerance summary
  flags : ∀ (k : Nat) (record : Record R), records[k]? = some record →
    record.flags.map (·.1) = processIds experiment.processes ∧
    ∀ id ∈ processIds experiment.processes, ∃ flag, record.flags.lookup id = some flag ∧
      ∀ phase view, Evaluates experiment seed tolerance (k + 1) id phase view →
        ∀ name, (Predicate.receivedDiff name : Predicate R).eval view = .ok flag

/-! ## Flags -/

omit [Scalar R] in
/-- A table made from inboxes has an entry for each of them. -/
theorem lookup_map_inboxes {α : Type} (inboxes : Inboxes R) (entry : Int → List (Message R) → α)
    {id : Int} (hid : id ∈ inboxes.map (·.1)) :
    (inboxes.map fun (id, inbox) => (id, entry id inbox)).lookup id =
      some (entry id (inboxes.get id)) := by
  induction inboxes with
  | nil => cases hid
  | cons first rest ih =>
      obtain ⟨owner, inbox⟩ := first
      rw [List.map_cons, List.lookup_cons, Inboxes.get_cons]
      by_cases h : id = owner
      · rw [if_pos h, beq_iff_eq.mpr h, h]
      · rw [if_neg h, beq_false_of_ne h]
        exact ih ((List.mem_cons.mp hid).resolve_left h)

/-- Whether something that a process has received differs from its value before the
step. -/
def differs (step : Step R) (id : Int) (inbox : List (Message R)) : Bool :=
  (packed inbox).any fun (_, value) => !Scalar.eq value (valueOf step.before id)

theorem flags_ofStep (tolerance : R) (step : Step R) :
    (Record.ofStep tolerance step).flags =
      step.inboxes.map fun (id, inbox) => (id, differs step id inbox) := by
  rw [Record.ofStep, List.map_map]
  rfl

/-- The predicate that asks for differing values sees whether some value differs from
the one before the step. -/
theorem eval_receivedDiff (view : View R) (name : String) :
    (Predicate.receivedDiff name : Predicate R).eval view =
      .ok (view.inbox.any fun (_, value) => !Scalar.eq value view.before) := by
  have hany : (!view.differing.isEmpty) =
      view.received.any fun value => !Scalar.eq value view.before := by
    rw [Bool.eq_iff_iff]
    simp [View.differing]
  rw [Predicate.eval, hany, View.received, List.any_map]
  rfl

/-- The value of a process, where there is one. -/
theorem valueOf_eq_of_valueOf {values : List R} {id : Int} {count : Nat}
    (hid : id ∈ processIds count) {value : R} (h : Simulation.valueOf values id = some value) :
    valueOf values id = value := by
  have hindex : id.toNat - 1 = (id - 1).toNat := by
    have := (mem_processIds.mp hid).1
    omega
  rw [valueOf, hindex, List.getD_eq_getElem?_getD, ← Simulation.valueOf, h, Option.getD_some]

/-! ## Digests -/

/-- The records of a run that are no record of the phase at the end are those of its
rounds. -/
theorem filter_ofRun (tolerance : R) (finished : Run R) :
    (ofRun tolerance finished).filter (fun record => !record.isEnd) =
      finished.rounds.map (Record.ofStep tolerance) :=
  List.filter_map ..

/-- A sum of counts as it is taken over records. -/
theorem foldl_delivered (tolerance : R) (steps : List (Step R)) :
    ((steps.map (Record.ofStep tolerance)).map (·.delivered)).foldl (· + ·) 0 =
      (((steps.map (·.delivered)).sum : Nat) : Int) := by
  rw [← List.sum_eq_foldl, List.map_map, Nat.cast_list_sum, List.map_map]
  rfl

/-- The digest of the records of a run in terms of the run. -/
theorem digest_ofRun (h : run experiment seed tolerance = .ok finished)
    (hne : finished.steps ≠ []) :
    Trace.digest (ofRun tolerance finished) = .ok {
      processes := experiment.processes
      rounds := experiment.rounds
      hasEnd := experiment.hasEnd
      delivered := (finished.summary tolerance).totalDelivered
      possible := experiment.rounds * experiment.processes * (experiment.processes - 1 : Int)
      initial := Simulation.discrepancy finished.start
      final := (finished.summary tolerance).finalDiscrepancy
      consensusRound := (finished.rounds.find? fun step => isConsensus tolerance step.after).map
        fun step => (step.round : Int) } := by
  obtain ⟨first, rest, hsteps⟩ := List.exists_cons_of_ne_nil hne
  have hrecords : ofRun tolerance finished =
      Record.ofStep tolerance first :: rest.map (Record.ofStep tolerance) := by
    rw [ofRun, hsteps, List.map_cons]
  have hrounds := filter_ofRun tolerance finished
  have hlast : (ofRun tolerance finished).getLast? =
      some (Record.ofStep tolerance (finished.steps.getLast hne)) := by
    rw [ofRun, List.getLast?_map, List.getLast?_eq_some_getLast hne]
    rfl
  have hbefore : finished.start = first.before := by
    have hfirst : finished.steps[0]? = some first := by rw [hsteps]; rfl
    exact Option.some.inj (getElem?_states_of_step h hfirst)
  have hcount := (length_states_of_run h).1
  have hlength : finished.start.length = experiment.processes :=
    length_of_mem_states h List.mem_cons_self
  obtain ⟨_, _, _, _, _, _, hall⟩ := exists_playRounds_of_run h
  rw [hrecords] at hrounds hlast ⊢
  rw [List.getLast?_eq_some_getLast (List.cons_ne_nil _ _)] at hlast
  simp only [Trace.digest, hrounds, Option.some.inj hlast, Except.ok.injEq, Digest.mk.injEq]
  have hbegin : (Record.ofStep tolerance first).before = finished.start := hbefore.symm
  have hsize : (Record.ofStep tolerance first :: rest.map (Record.ofStep tolerance)).length =
      finished.steps.length := by
    rw [hsteps, List.length_cons, List.length_cons, List.length_map]
  refine ⟨by rw [hbegin, hlength], by rw [List.length_map, hcount], ?_,
    foldl_delivered tolerance finished.rounds, ?_, by rw [hbegin], ?_, ?_⟩
  · rw [hsize, List.length_map, hall]
    cases experiment.hasEnd with
    | true => simp
    | false => simp
  · rw [hbegin, hlength, List.length_map, hcount]
  · change _ = Simulation.discrepancy (valuesAfter finished.start finished.steps)
    rw [valuesAfter, List.getLast?_eq_some_getLast hne]
    rfl
  · rw [List.find?_map, Option.map_map]
    rfl

/-! ## Consensus -/

/-- After a round of a run the values agree as its summary has it. -/
theorem agreesAfter_iff (h : run experiment seed tolerance = .ok finished) {k : Nat} {step : Step R}
    (hstep : finished.rounds[k]? = some step) :
    AgreesAfter experiment tolerance (finished.summary tolerance) (k + 1) ↔
      isConsensus tolerance step.after = true := by
  have hmore := (List.getElem?_eq_some_iff.mp hstep).choose
  rw [(length_states_of_run h).1] at hmore
  have hat : (finished.summary tolerance).discrepancies[k + 1]? =
      some (Simulation.discrepancy step.after) := by
    rw [discrepancies_eq_map, List.map_cons, List.getElem?_cons_succ, List.map_map,
      List.getElem?_map, getElem?_steps_of_rounds h hstep]
    rfl
  rw [AgreesAfter, hat]
  constructor
  · rintro ⟨_, _, value, hvalue, hle⟩
    cases hvalue
    exact hle
  · intro hle
    exact ⟨Nat.le_add_left 1 k, hmore, _, rfl, hle⟩

/-- The first round that counts as consensus is the first one after which the values
agree. -/
theorem find?_consensus_eq_some_iff (h : run experiment seed tolerance = .ok finished)
    {round : Int} :
    (finished.rounds.find? fun step => isConsensus tolerance step.after).map
        (fun step => (step.round : Int)) = some round ↔
      ∃ first : Nat, round = first ∧
        IsLeast {k | AgreesAfter experiment tolerance (finished.summary tolerance) k} first := by
  have hcount := (length_states_of_run h).1
  -- Rounds are counted from one, so the round with index `k` is the one after `k` others.
  have hagrees : ∀ {k : Nat} (hk : k < finished.rounds.length),
      AgreesAfter experiment tolerance (finished.summary tolerance) (k + 1) ↔
        isConsensus tolerance finished.rounds[k].after = true :=
    fun hk => agreesAfter_iff h (List.getElem?_eq_getElem hk)
  have hnumber : ∀ {k : Nat} (hk : k < finished.rounds.length), finished.rounds[k].round = k + 1 :=
    fun hk => (played_of_run h (getElem?_steps_of_rounds h (List.getElem?_eq_getElem hk))).number
  rw [Option.map_eq_some_iff]
  constructor
  · rintro ⟨step, hfound, rfl⟩
    obtain ⟨hconsensus, k, hk, rfl, hearlier⟩ := List.find?_eq_some_iff_getElem.mp hfound
    refine ⟨k + 1, by rw [hnumber hk], (hagrees hk).mpr hconsensus, ?_⟩
    intro other hother
    obtain ⟨hlow, hhigh, _⟩ := id hother
    by_contra hlt
    obtain ⟨j, rfl⟩ := Nat.exists_eq_add_of_le' hlow
    have hj : j < finished.rounds.length := by omega
    have hnot := hearlier j (by omega)
    rw [(hagrees hj).mp hother] at hnot
    cases hnot
  · rintro ⟨first, rfl, hagreesFirst, hleast⟩
    obtain ⟨hlow, hhigh, _⟩ := id hagreesFirst
    obtain ⟨k, rfl⟩ := Nat.exists_eq_add_of_le' hlow
    have hk : k < finished.rounds.length := by omega
    refine ⟨finished.rounds[k], List.find?_eq_some_iff_getElem.mpr
      ⟨(hagrees hk).mp hagreesFirst, k, hk, rfl, ?_⟩, by rw [hnumber hk]⟩
    intro j hj
    have hjk : j < finished.rounds.length := by omega
    rw [Bool.not_eq_true', Bool.eq_false_iff]
    intro hconsensus
    have := hleast ((hagrees hjk).mpr hconsensus)
    omega

theorem find?_consensus_eq_none_iff (h : run experiment seed tolerance = .ok finished) :
    (finished.rounds.find? fun step => isConsensus tolerance step.after) = none ↔
      ∀ round, ¬ AgreesAfter experiment tolerance (finished.summary tolerance) round := by
  have hcount := (length_states_of_run h).1
  rw [List.find?_eq_none]
  constructor
  · intro hnone round hagrees
    obtain ⟨hlow, hhigh, _⟩ := id hagrees
    obtain ⟨k, rfl⟩ := Nat.exists_eq_add_of_le' hlow
    have hk : k < finished.rounds.length := by omega
    exact hnone _ (List.getElem_mem hk)
      ((agreesAfter_iff h (List.getElem?_eq_getElem hk)).mp hagrees)
  · intro hnone step hstep hconsensus
    obtain ⟨k, hk⟩ := List.mem_iff_getElem?.mp hstep
    exact hnone _ ((agreesAfter_iff h hk).mpr hconsensus)

/-! ## Messages -/

/-- A run delivers at most one message for each two processes in each round. -/
theorem totalDelivered_le (h : run experiment seed tolerance = .ok finished) :
    ((finished.summary tolerance).totalDelivered : Int) ≤
      experiment.rounds * experiment.processes * (experiment.processes - 1 : Int) := by
  have heach : ∀ count ∈ finished.rounds.map (·.delivered),
      count ≤ experiment.processes * (experiment.processes - 1) := by
    intro count hcount
    obtain ⟨step, hstep, rfl⟩ := List.mem_map.mp hcount
    obtain ⟨k, hk⟩ := List.mem_iff_getElem?.mp hstep
    obtain ⟨_, _, network, drawn, next, hnetwork, hreached, hround⟩ := exists_playRound_of_run h hk
    obtain ⟨_, _, _, hdelivered, _, hexchange⟩ := playRound_eq_ok hround
    rw [hdelivered]
    exact (hreached.faithful hnetwork hexchange).size_le
  have hsum : (finished.summary tolerance).totalDelivered ≤
      experiment.rounds * (experiment.processes * (experiment.processes - 1)) := by
    have hsum := List.sum_le_card_nsmul _ _ heach
    rwa [List.length_map, (length_states_of_run h).1, Nat.nsmul_eq_mul] at hsum
  cases hcount : experiment.processes with
  | zero =>
      rw [hcount, Nat.zero_mul, Nat.mul_zero, Nat.le_zero] at hsum
      rw [hsum]
      simp
  | succ count =>
      rw [hcount, Nat.add_sub_cancel] at hsum
      push_cast
      rw [Int.add_sub_cancel, mul_assoc]
      exact_mod_cast hsum

/-! ## Records -/

/-- The record at a place is that of the step there. -/
theorem exists_step_of_record {k : Nat} {record : Record R}
    (h : (ofRun tolerance finished)[k]? = some record) :
    ∃ step, finished.steps[k]? = some step ∧ record = Record.ofStep tolerance step := by
  rw [ofRun, List.getElem?_map] at h
  obtain ⟨step, hstep, rfl⟩ := Option.map_eq_some_iff.mp h
  exact ⟨step, hstep, rfl⟩

theorem map_after_ofRun (tolerance : R) (finished : Run R) :
    (ofRun tolerance finished).map (·.after) = finished.steps.map (·.after) := by
  rw [ofRun, List.map_map]
  rfl

/-- The history of a run that has records goes through all of its states. -/
theorem history_ofRun (h : run experiment seed tolerance = .ok finished)
    (hne : ofRun tolerance finished ≠ []) :
    history (ofRun tolerance finished) = finished.start :: finished.steps.map (·.after) := by
  obtain ⟨first, rest, hrecords⟩ := List.exists_cons_of_ne_nil hne
  have hhead : (ofRun tolerance finished)[0]? = some first := by rw [hrecords]; rfl
  obtain ⟨step, hstep, rfl⟩ := exists_step_of_record hhead
  have hbefore : finished.start = step.before := Option.some.inj (getElem?_states_of_step h hstep)
  rw [← map_after_ofRun tolerance, hrecords, history, hbefore]
  rfl

/-- Wherever a process evaluates a phase of a step, the predicate that asks for
differing values sees what the record of the step has. -/
theorem eval_receivedDiff_of_evaluates (h : run experiment seed tolerance = .ok finished) {k : Nat}
    {step : Step R} (hstep : finished.steps[k]? = some step) {id : Int} {phase : Phase R}
    {view : View R} (hevaluates : Evaluates experiment seed tolerance (k + 1) id phase view)
    (name : String) :
    (Predicate.receivedDiff name : Predicate R).eval view =
      .ok (differs step id (step.inboxes.get id)) := by
  obtain ⟨hid, own, current, hown, rfl⟩ := hevaluates.view_eq h hstep
  rw [eval_receivedDiff, differs, valueOf_eq_of_valueOf hid hown]
  rfl

/-- The records of a run, their history and their digest tell of it what its summary
tells.

There is a record for each round and one for the phase at the end if there is one;
each starts from the values that the one before it has left, the first one from the
initial values, and the last one leaves the final values.  As soon as there is a
record, the discrepancies of the history are those of the summary, and the digest has
the messages delivered, which are no more than are possible, the final discrepancy,
and the first round after which the values agree.

Each record has a flag for each process, and it is the outcome of asking for
differing values wherever that process evaluates a phase in the step. -/
theorem records_tell_what_summary_tells (h : run experiment seed tolerance = .ok finished) :
    Tells experiment seed tolerance (finished.summary tolerance) (ofRun tolerance finished) := by
  obtain ⟨_, _, _, _, hstart, _, hall⟩ := exists_playRounds_of_run h
  refine ⟨?_, ?_, ⟨finished.start, hstart, ?_⟩, ?_, ?_, ?_, ?_⟩
  · rw [ofRun, List.length_map, hall, (length_states_of_run h).1]
  · intro k record hat
    obtain ⟨step, hstep, rfl⟩ := exists_step_of_record hat
    change (step.round : Int) = k + 1
    rw [(played_of_run h hstep).number, Nat.cast_succ]
  · intro k record hat
    obtain ⟨step, hstep, rfl⟩ := exists_step_of_record hat
    rw [map_after_ofRun]
    exact getElem?_states_of_step h hstep
  · intro record hlast
    rw [ofRun, List.getLast?_map] at hlast
    obtain ⟨step, hstep, rfl⟩ := Option.map_eq_some_iff.mp hlast
    change step.after = valuesAfter finished.start finished.steps
    rw [valuesAfter, hstep]
    rfl
  · intro hne
    rw [discrepancies_eq_map, history_ofRun h hne]
  · intro hne
    have hsteps : finished.steps ≠ [] := fun hnone => hne (by rw [ofRun, hnone]; rfl)
    refine ⟨_, digest_ofRun h hsteps, rfl, totalDelivered_le h, rfl,
      fun round => find?_consensus_eq_some_iff h, ?_⟩
    rw [Option.map_eq_none_iff]
    exact find?_consensus_eq_none_iff h
  · intro k record hat
    obtain ⟨step, hstep, rfl⟩ := exists_step_of_record hat
    have hkeys := (played_of_run h hstep).stage.receivers
    rw [flags_ofStep]
    refine ⟨?_, ?_⟩
    · rw [← hkeys, List.map_map]
      rfl
    · intro id hid
      exact ⟨_, lookup_map_inboxes step.inboxes (differs step) (hkeys ▸ hid),
        fun phase view hevaluates => eval_receivedDiff_of_evaluates h hstep hevaluates⟩

/-- Two processes that hear each other and take the average as long as they differ, then
the greatest value at the end. -/
def settlingPair : Experiment ℚ where
  name := "settling pair"
  processes := 2
  rounds := 2
  p := 1
  phases := [{ kind := .eachRound, rule := .ifDifferent (.aggregate .avg true) .own },
    { kind := .atEnd, rule := .combine .max }]
  leader := none
  parameters := []
  initial := .values [0, 1]
  models := [{ kind := .standard }]
  channel := .guarantee .none
  topology := none
  faults := none

/-- The settling pair agrees after its first round, and its records tell so: the second
process has received something else in the first round, and nothing else since. -/
theorem settlingPair_records_tell_summary : ∃ finished : Run ℚ,
    run settlingPair 3 0 = .ok finished ∧
    Tells settlingPair 3 0 (finished.summary 0) (ofRun 0 finished) ∧
    (∃ digest, Trace.digest (ofRun 0 finished) = .ok digest ∧
      digest.consensusRound = some 1 ∧ digest.delivered = 4) ∧
    (ofRun 0 finished).map (fun record => record.flags.lookup 2) =
      [some true, some false, some false] := by
  have hplays : (run settlingPair 3 0).map (fun finished =>
      ((Trace.digest (ofRun 0 finished)).toOption.map fun digest =>
          (digest.consensusRound, digest.delivered),
        (ofRun 0 finished).map fun record => record.flags.lookup 2)) =
      .ok (some (some 1, 4), [some true, some false, some false]) := by decide +kernel
  obtain ⟨finished, hrun, hsees⟩ := map_eq_ok.mp hplays
  obtain ⟨hdigest, hflags⟩ := Prod.mk.inj hsees
  have htells := records_tell_what_summary_tells hrun
  have hne : ofRun 0 finished ≠ [] := by
    intro hnone
    rw [hnone] at hflags
    cases hflags
  obtain ⟨digest, hfound, _⟩ := htells.digest hne
  rw [hfound] at hdigest
  obtain ⟨hround, hdelivered⟩ := Prod.mk.inj (Option.some.inj hdigest)
  exact ⟨finished, hrun, htells, ⟨digest, hfound, hround, hdelivered⟩, hflags⟩

end LossyConsensus.Trace
