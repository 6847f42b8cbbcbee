/-
# Results side by side

A study sets the results of two reports side by side by their places.  Each place
then shows the probability of the first report, whatever the second one was measured
at, and what one report has beyond the length of the other is dropped.  So a study
compares like with like exactly when the two reports have one grid.  Reports made for
the study have the grid of its plan; a report that is already there keeps its own.
-/

import LossyConsensus.Proofs.Sampling.Shape
import LossyConsensus.Study.Comparison

namespace LossyConsensus.Study

open LossyConsensus.Protocol LossyConsensus.Sampling

/-- A report each of whose results was measured at the probability that the grid has
at its place. -/
def Report.FollowsGrid (report : Report) : Prop :=
  report.results.map (·.p) = report.ps

/-- A protocol text, or a report that follows its grid. -/
def Subject.FollowsGrid : Subject → Prop
  | .text _ => True
  | .report given => given.FollowsGrid

/-- A protocol text, or a report with the grid of a plan. -/
def Subject.SharesGrid (plan : Plan) : Subject → Prop
  | .text _ => True
  | .report given => given.ps = plan.ps

/-- At a place of a pair two results stand side by side, under the probability of the
first one. -/
structure Pair.Shows (pair : Pair) (place : Nat) (one other : Result Float) : Prop where
  first : pair.first.results[place]? = some one
  second : pair.second.results[place]? = some other
  row : pair.table[place]? = some {
    p := one.p
    firstConsensus := one.consensusProbability
    secondConsensus := other.consensusProbability
    firstDiscrepancy := one.meanDiscrepancy
    secondDiscrepancy := other.meanDiscrepancy }
  difference : pair.differences[place]? =
    some (one.p, one.consensusProbability - other.consensusProbability)

/-- Every result of both reports stands in a row, beside one that was measured at the
same probability, which is the one that the row shows. -/
structure Pair.ComparesLikeWithLike (pair : Pair) : Prop where
  rows : pair.table.length = pair.first.results.length ∧
    pair.table.length = pair.second.results.length
  differences : pair.differences.length = pair.table.length
  places : ∀ place row, pair.table[place]? = some row →
    ∃ one other, pair.Shows place one other ∧ one.p = row.p ∧ other.p = row.p

/-! ## Reports that follow their grid -/

/-- A shield does not make a failure a success. -/
theorem outcome_of_shielded {α : Type} {details : Bool} {examination : Examination α} {value : α}
    (h : (examination.shielded details).outcome = .ok value) :
    examination.outcome = .ok value := by
  rw [Examination.shielded] at h
  split at h
  · exact h
  · next failure hfailure =>
    split at h
    · exact h
    · cases h

variable {plan : Plan} {details : Bool}

/-- A report that is made by sampling follows the grid of the plan. -/
theorem followsGrid_of_sampleProtocol {level : Option Journal.Level} {protocol : Protocol Float}
    {report : Report} (h : (sampleProtocol plan level protocol).outcome = .ok report) :
    report.FollowsGrid ∧ report.ps = plan.ps := by
  rw [sampleProtocol] at h
  split at h
  · cases h
  · next config _ =>
    obtain ⟨results, hresults, rfl⟩ := map_eq_ok.mp h
    refine ⟨?_, rfl⟩
    have hps := map_p_of_sweep (mapError_eq_ok.mp hresults)
    -- The probabilities go through the values of runs and come back unchanged.
    calc
      (results.map (Result.map Value.real)).map (·.p) = (results.map (·.p)).map Value.real := by
        rw [List.map_map, List.map_map]
        rfl
      _ = plan.ps := by
        rw [hps, List.map_map]
        exact List.map_id plan.ps

/-- An examination of a subject that follows its grid gives a report that does.  If
the subject shares the grid of the plan, so does the report. -/
theorem followsGrid_of_examine {level : Option Journal.Level} {subject : Subject} {report : Report}
    (hsubject : subject.FollowsGrid)
    (h : (examine plan level details subject).outcome = .ok report) :
    report.FollowsGrid ∧ (subject.SharesGrid plan → report.ps = plan.ps) := by
  cases subject with
  | report given =>
      obtain rfl : given = report := Except.ok.inj h
      exact ⟨hsubject, id⟩
  | text source =>
      have hinner := outcome_of_shielded h
      split at hinner
      · cases hinner
      · obtain ⟨hfollows, hps⟩ := followsGrid_of_sampleProtocol hinner
        exact ⟨hfollows, fun _ => hps⟩

/-- What goes on succeeds when both parts do. -/
theorem andThen_outcome_eq_ok {α β : Type} {first : Examination α} {next : α → Examination β}
    {value : β} :
    (first.andThen next).outcome = .ok value ↔
      ∃ found, first.outcome = .ok found ∧ (next found).outcome = .ok value := by
  rw [Examination.andThen]
  split
  · next failure hfailure => simp [hfailure]
  · next found hfound => simp [hfound]

/-- A study that succeeds has examined both subjects. -/
theorem examined_of_study {first second : Subject} {pair : Pair}
    (h : (study plan details first second).outcome = .ok pair) :
    (examine plan none details first).outcome = .ok pair.first ∧
      (examine plan none details second).outcome = .ok pair.second := by
  obtain ⟨report, hfirst, h⟩ := andThen_outcome_eq_ok.mp h
  obtain ⟨report', hsecond, h⟩ := andThen_outcome_eq_ok.mp h
  obtain rfl := Except.ok.inj h
  exact ⟨hfirst, hsecond⟩

/-! ## Places of a pair -/

namespace Pair

variable {pair : Pair}

theorem length_table (hfirst : pair.first.FollowsGrid) :
    pair.table.length = min pair.first.results.length pair.second.results.length := by
  have hps : pair.first.ps.length = pair.first.results.length := by
    rw [← hfirst, List.length_map]
  rw [table, List.length_map, List.length_zip, results, List.length_zip, hps]
  omega

theorem length_differences (pair : Pair) : pair.differences.length = pair.table.length := by
  rw [differences, table, List.length_map, List.length_zip, List.length_zip, List.length_map]

/-- Two results at one place are shown there. -/
theorem shows_of_results (hfirst : pair.first.FollowsGrid) {place : Nat}
    {one other : Result Float} (hone : pair.first.results[place]? = some one)
    (hother : pair.second.results[place]? = some other) : pair.Shows place one other := by
  have hp : pair.first.ps[place]? = some one.p := by
    rw [← hfirst, List.getElem?_map, hone]
    rfl
  have hresults : pair.results[place]? = some (one, other) :=
    List.getElem?_zip_eq_some.mpr ⟨hone, hother⟩
  refine ⟨hone, hother, ?_, ?_⟩
  · have hplace : (pair.first.ps.zip pair.results)[place]? = some (one.p, one, other) :=
      List.getElem?_zip_eq_some.mpr ⟨hp, hresults⟩
    rw [table, List.getElem?_map, hplace]
    rfl
  · rw [differences, List.getElem?_zip_eq_some]
    refine ⟨hp, ?_⟩
    rw [List.getElem?_map, hresults]
    rfl

/-- Each row shows two results. -/
theorem exists_shows_of_row (hfirst : pair.first.FollowsGrid) {place : Nat} {row : PairedRow}
    (hrow : pair.table[place]? = some row) :
    ∃ one other, pair.Shows place one other ∧ one.p = row.p := by
  have hplace : place < pair.table.length := (List.getElem?_eq_some_iff.mp hrow).choose
  rw [length_table hfirst] at hplace
  have hshows := shows_of_results hfirst
    (List.getElem?_eq_getElem (show place < pair.first.results.length by omega))
    (List.getElem?_eq_getElem (show place < pair.second.results.length by omega))
  exact ⟨_, _, hshows, congrArg PairedRow.p (Option.some.inj (hshows.row.symm.trans hrow))⟩

/-- Reports that follow their grids are compared like with like when they have one
grid. -/
theorem comparesLikeWithLike_of_ps_eq (hfirst : pair.first.FollowsGrid)
    (hsecond : pair.second.FollowsGrid) (hps : pair.first.ps = pair.second.ps) :
    pair.ComparesLikeWithLike := by
  have hgrids : pair.first.results.map (·.p) = pair.second.results.map (·.p) :=
    hfirst.trans (hps.trans hsecond.symm)
  have hlength : pair.first.results.length = pair.second.results.length := by
    simpa using congrArg List.length hgrids
  have htable := length_table hfirst
  refine ⟨by omega, length_differences pair, ?_⟩
  intro place row hrow
  obtain ⟨one, other, hshows, hp⟩ := exists_shows_of_row hfirst hrow
  have hsame : (pair.first.results.map (·.p))[place]? =
      (pair.second.results.map (·.p))[place]? := by
    rw [hgrids]
  rw [List.getElem?_map, List.getElem?_map, hshows.first, hshows.second] at hsame
  exact ⟨one, other, hshows, hp, (Option.some.inj hsame).symm.trans hp⟩

/-- Reports that are compared like with like have one grid. -/
theorem ComparesLikeWithLike.ps_eq (h : pair.ComparesLikeWithLike)
    (hfirst : pair.first.FollowsGrid) (hsecond : pair.second.FollowsGrid) :
    pair.first.ps = pair.second.ps := by
  have hlength : pair.first.results.length = pair.second.results.length :=
    h.rows.1.symm.trans h.rows.2
  rw [← hfirst, ← hsecond]
  apply List.ext_getElem (by simpa using hlength)
  intro place hplace _
  have hrow : place < pair.table.length := by
    rw [h.rows.1]
    simpa using hplace
  obtain ⟨one, other, hshows, hp, hp'⟩ := h.places place _ (List.getElem?_eq_getElem hrow)
  rw [List.getElem_map, List.getElem_map,
    (List.getElem?_eq_some_iff.mp hshows.first).choose_spec,
    (List.getElem?_eq_some_iff.mp hshows.second).choose_spec, hp, hp']

end Pair

/-- What a study sets side by side.  Take two subjects, each of them a protocol text or
a report whose results follow its grid, for which a study succeeds.  Then the table and
the differences have as many places as the shorter report has results.  At each place
stand the results that the two reports have there, under the probability at which the
first one was measured.  This compares like with like exactly if both reports have the
same grid, and so it does if each subject is a text or shares the grid of the plan. -/
theorem study_compares_by_place {first second : Subject} {pair : Pair}
    (hfirst : first.FollowsGrid) (hsecond : second.FollowsGrid)
    (h : (study plan details first second).outcome = .ok pair) :
    pair.table.length = min pair.first.results.length pair.second.results.length ∧
    pair.differences.length = pair.table.length ∧
    (∀ place row, pair.table[place]? = some row →
      ∃ one other, pair.Shows place one other ∧ one.p = row.p) ∧
    (pair.ComparesLikeWithLike ↔ pair.first.ps = pair.second.ps) ∧
    (first.SharesGrid plan → second.SharesGrid plan → pair.ComparesLikeWithLike) := by
  obtain ⟨hone, hother⟩ := examined_of_study h
  obtain ⟨hfollows, hps⟩ := followsGrid_of_examine hfirst hone
  obtain ⟨hfollows', hps'⟩ := followsGrid_of_examine hsecond hother
  refine ⟨Pair.length_table hfollows, Pair.length_differences pair,
    fun place row hrow => Pair.exists_shows_of_row hfollows hrow,
    ⟨fun hlike => hlike.ps_eq hfollows hfollows',
      Pair.comparesLikeWithLike_of_ps_eq hfollows hfollows'⟩, ?_⟩
  intro hshares hshares'
  exact Pair.comparesLikeWithLike_of_ps_eq hfollows hfollows'
    ((hps hshares).trans (hps' hshares').symm)

/-- A report of one run at each probability of a grid, all of which ended in consensus
or none. -/
def soloReport (name : String) (ps : List Float) (consensus : Float) : Report where
  name := name
  processes := 2
  rounds := 1
  repetitions := 1
  ps := ps
  tolerance := 1e-6
  results := ps.map fun p => {
    p
    repetitions := 1
    meanDiscrepancy := 0.0
    varDiscrepancy := 0.0
    consensusProbability := consensus
    meanByRound := []
    attempts := 1
    requested := 1
    samples := [0.0]
    tolerance := 1e-6 }

theorem followsGrid_soloReport (name : String) (ps : List Float) (consensus : Float) :
    (soloReport name ps consensus).FollowsGrid := by
  rw [Report.FollowsGrid, soloReport, List.map_map]
  exact List.map_id ps

/-- The text of two processes that take the lesser value they know. -/
def lesserText : String :=
  "PROTOCOL Lesser\nPROCESSES: 2\nSTATE: x\nINITIAL VALUES: [0, 1]\nUPDATE RULE: x ← min(all)"

/-- A text and a report with the grid of the plan stand side by side, like with like. -/
theorem lesserText_compared_by_place : ∃ (plan : Plan) (pair : Pair),
    (Subject.text lesserText).FollowsGrid ∧
    (Subject.report (soloReport "solo" [0.25, 0.75] 1.0)).FollowsGrid ∧
    (study plan true (.text lesserText) (.report (soloReport "solo" [0.25, 0.75] 1.0))).outcome =
      .ok pair ∧
    pair.table.length = min pair.first.results.length pair.second.results.length ∧
    pair.ComparesLikeWithLike := by
  let plan : Plan := { ps := [0.25, 0.75], repetitions := 1 }
  have hruns : (study plan true (.text lesserText)
      (.report (soloReport "solo" [0.25, 0.75] 1.0))).outcome.isOk = true := by
    decide +kernel
  obtain ⟨pair, hpair⟩ := exists_eq_ok hruns
  have hfollows : (Subject.report (soloReport "solo" [0.25, 0.75] 1.0)).FollowsGrid :=
    followsGrid_soloReport _ _ _
  have htext : (Subject.text lesserText).FollowsGrid := trivial
  obtain ⟨hlength, _, _, _, hlike⟩ := study_compares_by_place htext hfollows hpair
  exact ⟨plan, pair, htext, hfollows, hpair, hlength, hlike trivial rfl⟩

/-- A study does not ask for one grid.  Of two reports that follow their grids it sets a
result measured at three quarters under the probability of a quarter and leaves another
result out, while a comparison refuses the two. -/
theorem study_sets_unlike_side_by_side : ∃ pair : Pair,
    pair.first.FollowsGrid ∧ pair.second.FollowsGrid ∧
    (study {} false (.report pair.first) (.report pair.second)).outcome = .ok pair ∧
    pair.first.results.length = 2 ∧
    pair.table.map (·.p) = [0.25] ∧ pair.second.results.map (·.p) = [0.75] ∧
    ¬ pair.ComparesLikeWithLike ∧
    pair.compare "" = .error .incomparable := by
  let first := soloReport "first" [0.25, 0.5] 1.0
  let second := soloReport "second" [0.75] 0.0
  have hfollows : first.FollowsGrid := followsGrid_soloReport _ _ _
  have hfollows' : second.FollowsGrid := followsGrid_soloReport _ _ _
  have hstudy : (study {} false (.report first) (.report second)).outcome = .ok ⟨first, second⟩ :=
    rfl
  have hrows : (Pair.table ⟨first, second⟩).map (·.p) = [0.25] := rfl
  have hrefused : Pair.compare ⟨first, second⟩ "" = .error .incomparable := rfl
  refine ⟨⟨first, second⟩, hfollows, hfollows', hstudy, rfl, hrows, rfl, ?_, hrefused⟩
  intro hlike
  have hlength : 2 = 1 := congrArg List.length (hlike.ps_eq hfollows hfollows')
  omega

end LossyConsensus.Study
