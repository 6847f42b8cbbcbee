/-
# Reported rises

The report on the records of a run names the rounds in which the values drift apart.
It compares the discrepancy of each record with that of the record before it, which is
the discrepancy from which the step starts.  The first record has none before it: what
the first step does is compared with nothing, however far the values drift apart in it.
-/

import LossyConsensus.Proofs.Decimal.Quotient
import LossyConsensus.Proofs.Simulation.Metric
import LossyConsensus.Proofs.Trace.Record
import LossyConsensus.Value
import Std.Data.String.ToInt

namespace LossyConsensus.Trace

open LossyConsensus.Network LossyConsensus.Protocol LossyConsensus.Simulation

/-! ## Values and their doubles -/

/-- The records of a run, with doubles for its values. -/
def realRecords (tolerance : Value) (finished : Run Value) : List (Record Float) :=
  (ofRun tolerance finished).map (Record.map Value.real)

/-- Neither the messages delivered nor those possible depend on what the values are. -/
theorem exists_digest_map_real {records : List (Record Value)} {digest : Digest Value}
    (h : Trace.digest records = .ok digest) :
    ∃ digest', Trace.digest (records.map (Record.map Value.real)) = .ok digest' ∧
      digest'.delivered = digest.delivered ∧ digest'.possible = digest.possible := by
  have hrounds : (records.map (Record.map Value.real)).filter (fun record => !record.isEnd) =
      (records.filter fun record => !record.isEnd).map (Record.map Value.real) :=
    List.filter_map ..
  cases records with
  | nil => cases h
  | cons first rest =>
      obtain rfl := Except.ok.inj h
      refine ⟨_, rfl, ?_, ?_⟩
      · change ((((first :: rest).map (Record.map Value.real)).filter
          fun record => !record.isEnd).map (·.delivered)).foldl (· + ·) 0 = _
        rw [hrounds, List.map_map]
        rfl
      · change ((((first :: rest).map (Record.map Value.real)).filter
          fun record => !record.isEnd).length : Int) * (first.before.map Value.real).length *
            ((first.before.map Value.real).length - 1 : Int) = _
        rw [hrounds, List.length_map, List.length_map]

/-! ## Reports -/

/-- The letter that the text of an anomaly begins with. -/
def Anomaly.initial : Anomaly → Char
  | .nothingReceived _ => 'P'
  | .discrepancyRise _ => 'D'
  | .lowRate _ => 'L'
  | .neverUpdated _ => 'P'

theorem Anomaly.head?_message (anomaly : Anomaly) :
    anomaly.message.toList.head? = some anomaly.initial := by
  cases anomaly with
  | nothingReceived process =>
      change ("Process " ++ toString process ++ " never received any messages").toList.head? = _
      rw [String.toList_append, String.toList_append]
      rfl
  | discrepancyRise round =>
      change ("Discrepancy increased at round " ++ toString round).toList.head? = _
      rw [String.toList_append]
      rfl
  | lowRate percent =>
      change ("Low delivery rate: " ++ percent).toList.head? = _
      rw [String.toList_append]
      rfl
  | neverUpdated process =>
      change ("Process " ++ toString process ++ " never updated its state").toList.head? = _
      rw [String.toList_append, String.toList_append]
      rfl

/-- Only a rise is reported as a rise, and each under its own round. -/
theorem Anomaly.eq_discrepancyRise_of_message {anomaly : Anomaly} {round : Int}
    (h : anomaly.message = "Discrepancy increased at round " ++ toString round) :
    anomaly = .discrepancyRise round := by
  have hinitial : anomaly.initial = 'D' := by
    have hhead := anomaly.head?_message
    rw [h, String.toList_append] at hhead
    exact (Option.some.inj hhead).symm
  cases anomaly with
  | nothingReceived process => cases hinitial
  | lowRate percent => cases hinitial
  | neverUpdated process => cases hinitial
  | discrepancyRise other =>
      have htext : toString other = toString round := (String.append_right_inj _).mp h
      rw [Int.toString_eq_repr, Int.toString_eq_repr, Int.repr_inj] at htext
      rw [htext]

theorem mem_map_message_iff {reports : List Anomaly} {round : Int} :
    "Discrepancy increased at round " ++ toString round ∈ reports.map Anomaly.message ↔
      .discrepancyRise round ∈ reports := by
  rw [List.mem_map]
  constructor
  · rintro ⟨anomaly, hmem, htext⟩
    exact Anomaly.eq_discrepancyRise_of_message htext ▸ hmem
  · exact fun hmem => ⟨_, hmem, rfl⟩

variable {first : Record Float} {rest records : List (Record Float)}

/-- The processes of which a report says that they never change their values. -/
def unchanging (first : Record Float) (rest : List (Record Float)) (digest : Digest Float) :
    Except TraceError (List Nat) :=
  if 0.0 < digest.initial then
    ((List.range first.before.length).map (· + 1)).filterM fun id => neverUpdates id (first :: rest)
  else pure []

/-- The parts of a report. -/
theorem anomalies_cons_eq_ok {reports : List Anomaly} :
    anomalies (first :: rest) = .ok reports ↔ ∃ digest rate fixed,
      Trace.digest (first :: rest) = .ok digest ∧ digest.rate = .ok rate ∧
      unchanging first rest digest = .ok fixed ∧
      reports = (((List.range first.before.length).map (· + 1)).filter fun id =>
          !receivesAny ((first :: rest).filter fun record => !record.isEnd) id).map
            Anomaly.nothingReceived ++
        (rises (first :: rest)).map (fun record => Anomaly.discrepancyRise record.round) ++
        (if rate < lowRate then [Anomaly.lowRate (Digest.percent rate)] else []) ++
        fixed.map Anomaly.neverUpdated := by
  have hfixed : ∀ (digest : Digest Float) (next : List Nat → Except TraceError (List Anomaly)),
      (if 0.0 < digest.initial then
        ((List.range first.before.length).map (· + 1)).filterM
          (fun id => neverUpdates id (first :: rest)) >>= next
      else pure [] >>= next) = unchanging first rest digest >>= next := by
    intro digest next
    rw [unchanging]
    split <;> rfl
  simp only [anomalies, hfixed, bind_eq_ok, pure_eq_ok, exists_and_left, @eq_comm _ reports]

/-- What is reported as a rise are the rises. -/
theorem mem_anomalies_iff {reports : List Anomaly} (h : anomalies records = .ok reports)
    {round : Int} :
    .discrepancyRise round ∈ reports ↔ ∃ record ∈ rises records, record.round = round := by
  cases records with
  | nil =>
      obtain rfl := Except.ok.inj h
      simp [rises]
  | cons first rest =>
      obtain ⟨_, rate, fixed, _, _, _, rfl⟩ := anomalies_cons_eq_ok.mp h
      have hslow : Anomaly.discrepancyRise round ∉
          if rate < lowRate then [Anomaly.lowRate (Digest.percent rate)] else [] := by
        split <;> simp
      simp [hslow]

/-- A rise is a record that follows another one whose discrepancy is lower by more than
the factor. -/
theorem mem_rises_iff {record : Record Float} :
    record ∈ rises records ↔ ∃ (k : Nat) (previous : Record Float),
      records[k]? = some previous ∧ records[k + 1]? = some record ∧
        previous.discrepancy * riseFactor < record.discrepancy := by
  rw [rises, List.mem_map]
  constructor
  · rintro ⟨⟨previous, current⟩, hmem, rfl⟩
    obtain ⟨hpair, hrise⟩ := List.mem_filter.mp hmem
    obtain ⟨k, hk⟩ := List.mem_iff_getElem?.mp hpair
    obtain ⟨hprevious, hcurrent⟩ := List.getElem?_zip_eq_some.mp hk
    rw [List.getElem?_drop, Nat.add_comm] at hcurrent
    exact ⟨k, previous, hprevious, hcurrent, of_decide_eq_true hrise⟩
  · rintro ⟨k, previous, hprevious, hcurrent, hrise⟩
    refine ⟨(previous, record), List.mem_filter.mpr ⟨?_, decide_eq_true hrise⟩, rfl⟩
    refine List.mem_iff_getElem?.mpr ⟨k, List.getElem?_zip_eq_some.mpr ⟨hprevious, ?_⟩⟩
    rw [List.getElem?_drop, Nat.add_comm]
    exact hcurrent

/-! ## Reports are made -/

/-- Whether a process keeps its value can be told from records that have a value for
it. -/
theorem exists_neverUpdates {process : Nat}
    (h : ∀ record ∈ records, process - 1 < record.before.length ∧
      process - 1 < record.after.length) :
    ∃ never, neverUpdates process records = .ok never := by
  induction records with
  | nil => exact ⟨true, rfl⟩
  | cons record rest ih =>
      obtain ⟨⟨hbefore, hafter⟩, hrest⟩ := List.forall_mem_cons.mp h
      rw [neverUpdates, List.getElem?_eq_getElem hbefore, List.getElem?_eq_getElem hafter]
      dsimp only
      split
      · exact ih hrest
      · exact ⟨false, rfl⟩

theorem Digest.exists_rate {R : Type} {digest : Digest R} (hdelivered : 0 ≤ digest.delivered)
    (hle : digest.delivered ≤ digest.possible) : ∃ rate, digest.rate = .ok rate := by
  rw [rate]
  split
  · exact ⟨_, rfl⟩
  · next hnone =>
    have hpositive : 0 < digest.possible := by
      have hne : digest.possible ≠ 0 := by simpa using hnone
      omega
    obtain ⟨share, hshare⟩ := Decimal.exists_integerQuotient hdelivered hle hpositive
    exact ⟨share, mapError_eq_ok.mpr hshare⟩

/-- Records that have a value for each process, and of no more messages than are
possible, can be reported on. -/
theorem exists_anomalies {count : Nat}
    (hlengths : ∀ record ∈ records, record.before.length = count ∧ record.after.length = count)
    (hrate : records ≠ [] → ∃ digest, Trace.digest records = .ok digest ∧
      0 ≤ digest.delivered ∧ digest.delivered ≤ digest.possible) :
    ∃ reports, anomalies records = .ok reports := by
  cases records with
  | nil => exact ⟨[], rfl⟩
  | cons first rest =>
      obtain ⟨digest, hdigest, hdelivered, hle⟩ := hrate (List.cons_ne_nil first rest)
      obtain ⟨rate, hrate⟩ := Digest.exists_rate hdelivered hle
      have hfixed : ∃ fixed, unchanging first rest digest = .ok fixed := by
        rw [unchanging]
        split
        · refine exists_filterM_eq_ok fun id hid => exists_neverUpdates fun record hrecord => ?_
          obtain ⟨k, hk, rfl⟩ := List.mem_map.mp hid
          rw [List.mem_range, (hlengths first List.mem_cons_self).1] at hk
          obtain ⟨hbefore, hafter⟩ := hlengths record hrecord
          omega
        · exact ⟨[], rfl⟩
      obtain ⟨fixed, hfixed⟩ := hfixed
      exact ⟨_, anomalies_cons_eq_ok.mpr ⟨digest, rate, fixed, hdigest, hrate, hfixed, rfl⟩⟩

/-! ## Records of a run -/

section Run

variable {experiment : Experiment Value} {seed : Int} {tolerance : Value} {finished : Run Value}
  {k : Nat} {record : Record Float}

theorem exists_step_of_realRecord (h : (realRecords tolerance finished)[k]? = some record) :
    ∃ step, finished.steps[k]? = some step ∧
      record = (Record.ofStep tolerance step).map Value.real := by
  rw [realRecords, List.getElem?_map] at h
  obtain ⟨_, hrecord, rfl⟩ := Option.map_eq_some_iff.mp h
  obtain ⟨step, hstep, rfl⟩ := exists_step_of_record hrecord
  exact ⟨step, hstep, rfl⟩

theorem discrepancy_realRecord (h : (realRecords tolerance finished)[k]? = some record) :
    record.discrepancy = Simulation.discrepancy record.after := by
  obtain ⟨step, _, rfl⟩ := exists_step_of_realRecord h
  exact (discrepancy_map_real step.after).symm

theorem round_realRecord (hrun : run experiment seed tolerance = .ok finished)
    (h : (realRecords tolerance finished)[k]? = some record) : record.round = k + 1 := by
  obtain ⟨step, hstep, rfl⟩ := exists_step_of_realRecord h
  change (step.round : Int) = k + 1
  rw [(played_of_run hrun hstep).number, Nat.cast_succ]

/-- A record starts from the values that the one before it has left. -/
theorem before_realRecord (hrun : run experiment seed tolerance = .ok finished)
    {previous : Record Float} (hprevious : (realRecords tolerance finished)[k]? = some previous)
    (h : (realRecords tolerance finished)[k + 1]? = some record) :
    record.before = previous.after := by
  obtain ⟨step, hstep, rfl⟩ := exists_step_of_realRecord hprevious
  obtain ⟨later, hlater, rfl⟩ := exists_step_of_realRecord h
  have hbefore := getElem?_states_of_step hrun hlater
  rw [List.getElem?_cons_succ, List.getElem?_map, hstep] at hbefore
  exact congrArg (List.map Value.real) (Option.some.inj hbefore).symm

/-- The records of a finished run can be reported on. -/
theorem exists_anomalies_of_run (hrun : run experiment seed tolerance = .ok finished) :
    ∃ reports, anomalies (realRecords tolerance finished) = .ok reports := by
  have hlengths : ∀ record ∈ realRecords tolerance finished,
      record.before.length = experiment.processes ∧
        record.after.length = experiment.processes := by
    intro record hrecord
    obtain ⟨k, hk⟩ := List.mem_iff_getElem?.mp hrecord
    obtain ⟨step, hstep, rfl⟩ := exists_step_of_realRecord hk
    exact ⟨(List.length_map _).trans (played_of_run hrun hstep).values,
      (List.length_map _).trans (length_after_of_run hrun (List.mem_of_getElem? hstep))⟩
  refine exists_anomalies hlengths fun hne => ?_
  have hsteps : finished.steps ≠ [] := by
    intro hnone
    rw [realRecords, ofRun, hnone] at hne
    exact hne rfl
  obtain ⟨digest, hdigest, hdelivered, hpossible⟩ :=
    exists_digest_map_real (digest_ofRun hrun hsteps)
  refine ⟨digest, hdigest, ?_, ?_⟩
  · rw [hdelivered]
    exact Int.natCast_nonneg _
  · rw [hdelivered, hpossible]
    exact totalDelivered_le hrun

/-- A record of a run is a rise if it is not the first one and the discrepancy of the
values before it is lower by more than the factor. -/
theorem exists_rise_of_round_iff (hrun : run experiment seed tolerance = .ok finished)
    (h : (realRecords tolerance finished)[k]? = some record) :
    (∃ rise ∈ rises (realRecords tolerance finished), rise.round = record.round) ↔
      k ≠ 0 ∧ Simulation.discrepancy record.before * riseFactor < record.discrepancy := by
  have hbefore : ∀ {j : Nat} {previous : Record Float}, k = j + 1 →
      (realRecords tolerance finished)[j]? = some previous →
      previous.discrepancy = Simulation.discrepancy record.before := by
    rintro j previous rfl hprevious
    rw [discrepancy_realRecord hprevious, before_realRecord hrun hprevious h]
  constructor
  · rintro ⟨rise, hrise, hround⟩
    obtain ⟨j, previous, hprevious, hat, hrises⟩ := mem_rises_iff.mp hrise
    obtain rfl : k = j + 1 := by
      rw [round_realRecord hrun hat, round_realRecord hrun h] at hround
      omega
    obtain rfl := Option.some.inj (hat.symm.trans h)
    rw [hbefore rfl hprevious] at hrises
    exact ⟨Nat.succ_ne_zero j, hrises⟩
  · rintro ⟨hlater, hrises⟩
    obtain ⟨j, rfl⟩ := Nat.exists_eq_succ_of_ne_zero hlater
    have hmore := (List.getElem?_eq_some_iff.mp h).choose
    have hprevious := List.getElem?_eq_getElem (Nat.lt_of_succ_lt hmore)
    rw [← hbefore rfl hprevious] at hrises
    exact ⟨record, mem_rises_iff.mpr ⟨j, _, hprevious, h, hrises⟩, rfl⟩

/-- The records of a finished run can always be reported on, and the report names the
round of a record as one in which the discrepancy rises exactly if it does, by more than
the factor over the values before the record, and the record is not the first one. -/
theorem rises_reported_after_first_record
    (hrun : run experiment seed tolerance = .ok finished) :
    ∃ reports, anomalies (realRecords tolerance finished) = .ok reports ∧
      ∀ (k : Nat) (record : Record Float), (realRecords tolerance finished)[k]? = some record →
        record.round = k + 1 ∧ record.discrepancy = Simulation.discrepancy record.after ∧
        ("Discrepancy increased at round " ++ toString record.round ∈
            reports.map Anomaly.message ↔
          k ≠ 0 ∧ Simulation.discrepancy record.before * riseFactor < record.discrepancy) := by
  obtain ⟨reports, hreports⟩ := exists_anomalies_of_run hrun
  refine ⟨reports, hreports, fun k record hrecord => ?_⟩
  rw [mem_map_message_iff, mem_anomalies_iff hreports]
  exact ⟨round_realRecord hrun hrecord, discrepancy_realRecord hrecord,
    exists_rise_of_round_iff hrun hrecord⟩

end Run

/-- Two processes that double their values in every round. -/
def doubling (rounds : Nat) : Experiment Value where
  name := "doubling"
  processes := 2
  rounds := rounds
  p := Scalar.ofNat 1
  phases := [{ kind := .eachRound, rule := .assign (.plain "x") (.binary .add .own .own) }]
  leader := none
  parameters := []
  initial := .values [.ofReal 1.0, .ofReal 2.0]
  models := [{ kind := .standard }]
  channel := .guarantee .none
  topology := none
  faults := none

/-- The rounds of some records, and whether the values drift apart in them. -/
def drifts (records : List (Record Float)) : List (Int × Bool) :=
  records.map fun record => (record.round,
    decide (Simulation.discrepancy record.before * riseFactor < record.discrepancy))

/-- The doubled values drift apart in both of two rounds, and the second round is
reported. -/
theorem doubling_reported_in_second_round : ∃ finished reports,
    run (doubling 2) 1 Scalar.zero = .ok finished ∧
    drifts (realRecords Scalar.zero finished) = [(1, true), (2, true)] ∧
    anomalies (realRecords Scalar.zero finished) = .ok reports ∧
    "Discrepancy increased at round 2" ∈ reports.map Anomaly.message ∧
    "Discrepancy increased at round 1" ∉ reports.map Anomaly.message := by
  have hplays : (run (doubling 2) 1 Scalar.zero).isOk = true := by decide +kernel
  obtain ⟨finished, hrun⟩ := exists_eq_ok hplays
  have hdrifts : ((run (doubling 2) 1 Scalar.zero).toOption.map fun finished =>
      drifts (realRecords Scalar.zero finished)) = some [(1, true), (2, true)] := by
    decide +kernel
  rw [hrun] at hdrifts
  have hrecords := Option.some.inj hdrifts
  obtain ⟨first, _, hsplit, hfirst, hrest⟩ := List.map_eq_cons_iff.mp hrecords
  obtain ⟨second, _, rfl, hsecond, _⟩ := List.map_eq_cons_iff.mp hrest
  obtain ⟨hround, _⟩ := Prod.mk.inj hfirst
  obtain ⟨hround', hrise⟩ := Prod.mk.inj hsecond
  obtain ⟨reports, hreports, hall⟩ := rises_reported_after_first_record hrun
  obtain ⟨_, _, hone⟩ := hall 0 first (by rw [hsplit]; rfl)
  obtain ⟨_, _, htwo⟩ := hall 1 second (by rw [hsplit]; rfl)
  rw [hround] at hone
  rw [hround'] at htwo
  exact ⟨finished, reports, hrun, hrecords, hreports,
    htwo.mpr ⟨Nat.one_ne_zero, of_decide_eq_true hrise⟩, fun hmem => (hone.mp hmem).1 rfl⟩

/-- In a single round they drift apart as far, and nothing is reported of it. -/
theorem doubling_not_reported_in_first_round : ∃ finished record reports,
    run (doubling 1) 1 Scalar.zero = .ok finished ∧
    realRecords Scalar.zero finished = [record] ∧ record.round = 1 ∧
    Simulation.discrepancy record.before * riseFactor < record.discrepancy ∧
    anomalies (realRecords Scalar.zero finished) = .ok reports ∧
    "Discrepancy increased at round 1" ∉ reports.map Anomaly.message := by
  have hplays : (run (doubling 1) 1 Scalar.zero).isOk = true := by decide +kernel
  obtain ⟨finished, hrun⟩ := exists_eq_ok hplays
  have hdrifts : ((run (doubling 1) 1 Scalar.zero).toOption.map fun finished =>
      drifts (realRecords Scalar.zero finished)) = some [(1, true)] := by
    decide +kernel
  rw [hrun] at hdrifts
  obtain ⟨record, hsplit, hrecord⟩ := List.map_eq_singleton_iff.mp (Option.some.inj hdrifts)
  obtain ⟨hround, hrise⟩ := Prod.mk.inj hrecord
  obtain ⟨reports, hreports⟩ := exists_anomalies_of_run hrun
  have htext : "Discrepancy increased at round 1" =
      "Discrepancy increased at round " ++ toString (1 : Int) := by decide
  refine ⟨finished, record, reports, hrun, hsplit, hround, of_decide_eq_true hrise, hreports, ?_⟩
  rw [htext, mem_map_message_iff, mem_anomalies_iff hreports, hsplit]
  rintro ⟨_, hnone, _⟩
  cases hnone

end LossyConsensus.Trace
