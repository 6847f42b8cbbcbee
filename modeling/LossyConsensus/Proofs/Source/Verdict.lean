/-
# What a verdict says of a text

A clause holds of two reports when its header covers a point of their grid and its
relation stands, as the clause has it, between the means of its metric over the covered
points.  The verdict on the conditions of a text is a success exactly when every clause
of the text holds.  Otherwise it is about the first clause that does not.
-/

import LossyConsensus.Proofs.Source.Mirror
import LossyConsensus.Proofs.Study.Alignment

namespace LossyConsensus.Source

open LossyConsensus.Protocol LossyConsensus.Sampling LossyConsensus.Study

/-! ## The meaning of clauses -/

/-- What a metric measures of a result. -/
inductive Measures : Metric → (Result Float → Float) → Prop
  | consensus : Measures .consensus (·.consensusProbability)
  | discrepancy : Measures .discrepancy (·.meanDiscrepancy)

/-- A name stands for one of two reports. -/
inductive Denotes (names : Names) (first second : Report) (name : String) : Report → Prop
  | first (h : name = names.first ∨ name = "A") : Denotes names first second name first
  | second (h : name = names.second ∨ name = "B") : Denotes names first second name second

/-- Whether the header of a clause covers a probability. -/
def Clause.covers (clause : Clause) (p : Float) : Bool :=
  match clause.side with
  | .above => clause.threshold < p
  | .below => p < clause.threshold

/-- The results of a report at the points that a clause covers. -/
def Clause.covered (clause : Clause) (report : Report) : List (Result Float) :=
  ((report.ps.zip report.results).filter fun (p, _) => clause.covers p).map (·.2)

/-- The mean over the covered points: the sum from left to right, over the count. -/
def Clause.mean (clause : Clause) (measure : Result Float → Float) (report : Report) : Float :=
  Scalar.mean ((clause.covered report).map measure)

variable (names : Names) (first second : Report)

/-- A clause is true of two reports. -/
structure Clause.Holds (clause : Clause) : Prop where
  covers : ∃ p ∈ first.ps, clause.covers p = true
  relates : ∃ measure left right, Measures clause.metric measure ∧
    Denotes names first second clause.left left ∧ Denotes names first second clause.right right ∧
    clause.relation.holds (clause.mean measure left) (clause.mean measure right) = true

/-- A verdict is about a clause: either the header covers no point of the grid, or it
covers some and the verdict has the means of both reports. -/
inductive Clause.IsBlamed (clause : Clause) : Verdict → Prop
  | unmatched {condition : Condition} (hread : clause.read? names = some condition)
      (hnone : ∀ p ∈ first.ps, clause.covers p = false) : IsBlamed clause (.unmatched condition)
  | failed {condition : Condition} {measure : Result Float → Float}
      (hread : clause.read? names = some condition)
      (hsome : ∃ p ∈ first.ps, clause.covers p = true) (hmeasure : Measures clause.metric measure) :
      IsBlamed clause
        (.failed condition (clause.mean measure first) (clause.mean measure second))

/-- A verdict is a success exactly when all clauses hold, and otherwise it is about the
first clause that does not. -/
structure Judges (clauses : List Clause) (verdict : Verdict) : Prop where
  holds_iff : verdict.holds = true ↔ ∀ clause ∈ clauses, clause.Holds names first second
  blames : verdict.holds = false → ∃ before clause after, clauses = before ++ clause :: after ∧
    (∀ earlier ∈ before, earlier.Holds names first second) ∧
    ¬ clause.Holds names first second ∧ clause.IsBlamed names first second verdict

variable {names first second} {clause : Clause} {clauses : List Clause} {condition : Condition}
  {conditions : List Condition} {measure : Result Float → Float} {report : Report}
  {verdict : Verdict}

/-! ## Verdicts on one clause more -/

theorem Clause.IsBlamed.holds_eq (h : clause.IsBlamed names first second verdict) :
    verdict.holds = false := by
  cases h <;> rfl

theorem Judges.nil (h : verdict.holds = true) : Judges names first second [] verdict where
  holds_iff := by simp [h]
  blames hfails := by simp [h] at hfails

theorem Judges.cons (h : Judges names first second clauses verdict)
    (hclause : clause.Holds names first second) :
    Judges names first second (clause :: clauses) verdict where
  holds_iff := by
    rw [h.holds_iff, List.forall_mem_cons]
    exact (and_iff_right hclause).symm
  blames hfails := by
    obtain ⟨before, failing, after, rfl, hbefore, hfailing, hblamed⟩ := h.blames hfails
    exact ⟨clause :: before, failing, after, rfl, List.forall_mem_cons.mpr ⟨hclause, hbefore⟩,
      hfailing, hblamed⟩

theorem Clause.IsBlamed.judges (h : clause.IsBlamed names first second verdict)
    (hclause : ¬ clause.Holds names first second) (clauses : List Clause) :
    Judges names first second (clause :: clauses) verdict where
  holds_iff := by
    rw [h.holds_eq, List.forall_mem_cons]
    simp [hclause]
  blames _ := ⟨[], clause, clauses, rfl, by simp, hclause, h⟩

/-! ## Conditions and their clauses -/

theorem Clause.parts_of_read? (h : clause.read? names = some condition) :
    condition.side = clause.side ∧ condition.threshold = clause.threshold ∧
      condition.metric = clause.metric := by
  rw [Clause.read?] at h
  split at h
  · cases h
    exact ⟨rfl, rfl, rfl⟩
  · split at h
    · cases h
      exact ⟨rfl, rfl, rfl⟩
    · cases h

/-- A condition selects the points that its clause covers. -/
theorem Clause.selects_eq (h : clause.read? names = some condition) :
    condition.selects = clause.covers := by
  obtain ⟨hside, hthreshold, -⟩ := Clause.parts_of_read? h
  funext p
  cases hclause : clause.side <;>
    simp only [Condition.selects, Clause.covers, hside, hthreshold, hclause]

theorem Clause.selected_eq (h : clause.read? names = some condition) (report : Report)
    (measure : Result Float → Float) :
    condition.selected report.ps (report.results.map measure) =
      (clause.covered report).map measure := by
  rw [Condition.selected, Clause.selects_eq h, Clause.covered]
  generalize report.ps = ps
  induction report.results generalizing ps with
  | nil => simp
  | cons result results ih =>
      cases ps with
      | nil => rfl
      | cons p ps =>
          rw [List.map_cons, List.zip_cons_cons, List.zip_cons_cons]
          cases hcovers : clause.covers p <;> simp [hcovers, ih]

theorem exists_measures {metric : Metric} (h : metric ∈ writtenMetrics) :
    ∃ measure, Measures metric measure := by
  rcases List.mem_pair.mp h with rfl | rfl
  · exact ⟨_, .consensus⟩
  · exact ⟨_, .discrepancy⟩

theorem Measures.unique {metric : Metric} {other : Result Float → Float}
    (h : Measures metric measure) (h' : Measures metric other) : other = measure := by
  cases h <;> cases h' <;> rfl

theorem Measures.metric_eq {metric : Metric} (h : Measures metric measure) (report : Report) :
    report.metric metric = .ok (report.results.map measure) := by
  cases h <;> rfl

/-- A clause that covers a point of the grid covers a result. -/
theorem Clause.covered_ne_nil (hlength : report.results.length = report.ps.length)
    (h : ∃ p ∈ report.ps, clause.covers p = true) : clause.covered report ≠ [] := by
  obtain ⟨p, hp, hcovers⟩ := h
  obtain ⟨index, hindex, rfl⟩ := List.mem_iff_getElem.mp hp
  have hresult : index < report.results.length := hlength ▸ hindex
  have hzip : (report.ps[index], report.results[index]) ∈ report.ps.zip report.results :=
    List.mem_iff_getElem.mpr ⟨index, by simp [hindex, hresult], by simp⟩
  have hmem : report.results[index] ∈ clause.covered report :=
    List.mem_map_of_mem (List.mem_filter.mpr ⟨hzip, hcovers⟩)
  exact List.ne_nil_of_mem hmem

/-- The means of a condition are those of its clause: none is over no values. -/
theorem Clause.meanOf_eq (hread : clause.read? names = some condition)
    (hlength : report.results.length = report.ps.length)
    (hcovers : ∃ p ∈ report.ps, clause.covers p = true) (measure : Result Float → Float) :
    meanOf (condition.selected report.ps (report.results.map measure)) =
      .ok (clause.mean measure report) := by
  rw [Clause.selected_eq hread, meanOf, if_neg, Clause.mean]
  rw [List.isEmpty_iff, List.map_eq_nil_iff]
  exact Clause.covered_ne_nil hlength hcovers

theorem denotes_of_isFirst {name : String} (hshared : ¬ names.IsShared name)
    (hname : names.isFirst name = true) :
    Denotes names first second name report ↔ report = first := by
  constructor
  · rintro (_ | h)
    · rfl
    · exact absurd ⟨hname, by simpa [Names.isSecond] using h⟩ hshared
  · rintro rfl
    exact .first (by simpa [Names.isFirst] using hname)

theorem denotes_of_isSecond {name : String} (hshared : ¬ names.IsShared name)
    (hname : names.isSecond name = true) :
    Denotes names first second name report ↔ report = second := by
  constructor
  · rintro (h | _)
    · exact absurd ⟨by simpa [Names.isFirst] using h, hname⟩ hshared
    · rfl
  · rintro rfl
    exact .second (by simpa [Names.isSecond] using hname)

theorem holds_converse {relation : Relation} (h : relation ∈ writtenRelations)
    (left right : Float) : relation.converse.holds left right = relation.holds right left := by
  simp only [writtenRelations, List.mem_cons, List.not_mem_nil, or_false] at h
  rcases h with rfl | rfl | rfl | rfl <;> rfl

/-- The condition of a clause compares the first report with the second one as the
clause compares those that its names stand for. -/
theorem Clause.holds_iff (hshared : ∀ name, ¬ names.IsShared name)
    (hrelation : clause.relation ∈ writtenRelations)
    (hread : clause.read? names = some condition) (hmeasure : Measures clause.metric measure) :
    clause.Holds names first second ↔ (∃ p ∈ first.ps, clause.covers p = true) ∧
      condition.relation.holds (clause.mean measure first) (clause.mean measure second) = true := by
  have hmeans (one other : Report) : (∃ measure left right, Measures clause.metric measure ∧
      left = one ∧ right = other ∧
      clause.relation.holds (clause.mean measure left) (clause.mean measure right) = true) ↔
      clause.relation.holds (clause.mean measure one) (clause.mean measure other) = true := by
    constructor
    · rintro ⟨found, _, _, hfound, rfl, rfl, hholds⟩
      rwa [hmeasure.unique hfound] at hholds
    · exact fun hholds => ⟨measure, one, other, hmeasure, rfl, rfl, hholds⟩
  have hrelates : (∃ measure left right, Measures clause.metric measure ∧
      Denotes names first second clause.left left ∧ Denotes names first second clause.right right ∧
      clause.relation.holds (clause.mean measure left) (clause.mean measure right) = true) ↔
      condition.relation.holds (clause.mean measure first) (clause.mean measure second) = true := by
    rw [Clause.read?] at hread
    split at hread
    · next hstraight =>
      cases hread
      rw [Bool.and_eq_true] at hstraight
      simp only [denotes_of_isFirst (hshared _) hstraight.1,
        denotes_of_isSecond (hshared _) hstraight.2]
      exact hmeans first second
    · split at hread
      · next hreversed =>
        cases hread
        rw [Bool.and_eq_true] at hreversed
        simp only [denotes_of_isSecond (hshared _) hreversed.1,
          denotes_of_isFirst (hshared _) hreversed.2, holds_converse hrelation]
        exact hmeans second first
      · cases hread
  constructor
  · exact fun h => ⟨h.covers, hrelates.mp h.relates⟩
  · exact fun h => ⟨h.1, hrelates.mpr h.2⟩

/-! ## Judging conditions -/

/-- Judging takes one condition more: it stops where the clause of the condition covers
nothing or does not hold, and goes on otherwise. -/
theorem judgeFrom_cons (hshared : ∀ name, ¬ names.IsShared name) (hgrid : first.ps = second.ps)
    (hfirst : first.results.length = first.ps.length)
    (hsecond : second.results.length = second.ps.length)
    (hparts : clause.metric ∈ writtenMetrics ∧ clause.relation ∈ writtenRelations)
    (hread : clause.read? names = some condition) (passed : List Condition) :
    (clause.Holds names first second ∧ judgeFrom first second passed (condition :: conditions) =
        judgeFrom first second (passed ++ [condition]) conditions) ∨
      ¬ clause.Holds names first second ∧ ∃ verdict,
        judgeFrom first second passed (condition :: conditions) = .ok verdict ∧
          clause.IsBlamed names first second verdict := by
  obtain ⟨measure, hmeasure⟩ := exists_measures hparts.1
  have hholds : clause.Holds names first second ↔ _ :=
    Clause.holds_iff hshared hparts.2 hread hmeasure
  have hmetric : condition.metric = clause.metric := (Clause.parts_of_read? hread).2.2
  by_cases hcovers : ∃ p ∈ first.ps, clause.covers p = true
  · have hany : first.ps.any condition.selects = true := by
      rw [Clause.selects_eq hread]
      exact List.any_eq_true.mpr hcovers
    have hfirstMean := Clause.meanOf_eq hread hfirst hcovers measure
    have hsecondMean := Clause.meanOf_eq hread hsecond (hgrid ▸ hcovers) measure
    have hstep : judgeFrom first second passed (condition :: conditions) =
        if condition.relation.holds (clause.mean measure first) (clause.mean measure second) then
          judgeFrom first second (passed ++ [condition]) conditions
        else .ok (.failed condition (clause.mean measure first) (clause.mean measure second)) := by
      rw [← hgrid] at hsecondMean
      simp only [judgeFrom, hany, hmetric, hmeasure.metric_eq, ok_bind, hfirstMean, hsecondMean,
        Bool.not_true, Bool.false_eq_true, if_false]
      rfl
    rw [hstep]
    split
    · next hrelation => exact .inl ⟨hholds.mpr ⟨hcovers, hrelation⟩, rfl⟩
    · next hrelation =>
      exact .inr ⟨fun h => hrelation (hholds.mp h).2, _, rfl, .failed hread hcovers hmeasure⟩
  · have hnone : ∀ p ∈ first.ps, clause.covers p = false := by
      intro p hp
      exact Bool.eq_false_iff.mpr fun h => hcovers ⟨p, hp, h⟩
    have hany : first.ps.any condition.selects = false := by
      rw [Clause.selects_eq hread]
      exact List.any_eq_false.mpr fun p hp h => hcovers ⟨p, hp, h⟩
    refine .inr ⟨fun h => hcovers h.covers, .unmatched condition, ?_, .unmatched hread hnone⟩
    rw [judgeFrom, hany]
    rfl

/-- Judging conditions never fails, and judges the clauses that they were read from. -/
theorem exists_judgeFrom (hshared : ∀ name, ¬ names.IsShared name) (hgrid : first.ps = second.ps)
    (hfirst : first.results.length = first.ps.length)
    (hsecond : second.results.length = second.ps.length)
    (hparts : ∀ clause ∈ clauses, clause.metric ∈ writtenMetrics ∧
      clause.relation ∈ writtenRelations)
    (hreads : ReadsClauses names clauses conditions) (passed : List Condition) :
    ∃ verdict, judgeFrom first second passed conditions = .ok verdict ∧
      Judges names first second clauses verdict := by
  induction hreads generalizing passed with
  | nil => exact ⟨.passed passed, rfl, .nil rfl⟩
  | @cons clause condition clauses conditions hread _ ih =>
      rw [List.forall_mem_cons] at hparts
      rcases judgeFrom_cons hshared hgrid hfirst hsecond hparts.1 hread passed with
        ⟨hclause, hstep⟩ | ⟨hclause, verdict, hstep, hblamed⟩
      · obtain ⟨verdict, hrest, hjudges⟩ := ih hparts.2 (passed ++ [condition])
        exact ⟨verdict, hstep.trans hrest, hjudges.cons hclause⟩
      · exact ⟨verdict, hstep, hblamed.judges hclause clauses⟩

/-- Under names that do not overlap and on one grid, the verdict on the conditions of a
text exists and judges the clauses of the text as they are written. -/
theorem verdict_judges_clauses_as_written {text : String}
    (hnames : names.first ≠ names.second) (hfirstName : names.first ≠ "B")
    (hsecondName : names.second ≠ "A") (hgrid : first.ps = second.ps)
    (hfirst : first.results.length = first.ps.length)
    (hsecond : second.results.length = second.ps.length)
    (hread : readConditions names text = .ok conditions) :
    ∃ clauses verdict, WritesConditions clauses text ∧
      (∀ others, WritesConditions others text → others = clauses) ∧
      judge first second conditions = .ok verdict ∧
      Judges names first second clauses verdict := by
  have hshared := not_isShared hnames hfirstName hsecondName
  obtain ⟨clauses, hwritten, hreads⟩ := exists_of_readConditions.mp hread
  have hunique : ∀ others, WritesConditions others text → others = clauses :=
    fun others hothers => hwritten.unique hothers
  cases hreads with
  | nil => exact ⟨[], .vacuous, hwritten, hunique, rfl, .nil rfl⟩
  | cons hclause hreads =>
      obtain ⟨verdict, hverdict, hjudges⟩ := exists_judgeFrom hshared hgrid hfirst hsecond
        (fun _ => hwritten.parts_mem) (.cons hclause hreads) []
      exact ⟨_, verdict, hwritten, hunique, hverdict, hjudges⟩

/-- A clause with the second report on the left, judged as it is written: the consensus
of the second report above one half is not above that of the first one. -/
theorem letter_before_name_judged_as_written : ∃ conditions clauses verdict,
    readConditions ⟨"AMP", "FV"⟩ (aboveHalf "B.consensus <= AMP.consensus") = .ok conditions ∧
    WritesConditions clauses (aboveHalf "B.consensus <= AMP.consensus") ∧
    judge (soloReport "AMP" [0.25, 0.75] 1.0) (soloReport "FV" [0.25, 0.75] 0.0) conditions =
      .ok verdict ∧
    Judges ⟨"AMP", "FV"⟩ (soloReport "AMP" [0.25, 0.75] 1.0) (soloReport "FV" [0.25, 0.75] 0.0)
      clauses verdict ∧
    verdict.holds = true := by
  have hwritten : WritesConditions [consensusAbove "B" .le "AMP"]
      (aboveHalf "B.consensus <= AMP.consensus") :=
    writesConditions_aboveHalf (by decide +kernel) rfl
  have hread : readConditions ⟨"AMP", "FV"⟩ (aboveHalf "B.consensus <= AMP.consensus") =
      .ok [⟨.above, oneHalf, .consensus, .ge⟩] :=
    (readConditions_eq_ok_iff hwritten).mpr (.cons rfl .nil)
  have hgrid : (soloReport "AMP" [0.25, 0.75] 1.0).ps = (soloReport "FV" [0.25, 0.75] 0.0).ps :=
    rfl
  have hsuccess : (judge (soloReport "AMP" [0.25, 0.75] 1.0) (soloReport "FV" [0.25, 0.75] 0.0)
      [⟨.above, oneHalf, .consensus, .ge⟩]).toOption.map Verdict.holds = some true := by
    decide +kernel
  obtain ⟨clauses, verdict, hclauses, -, hverdict, hjudges⟩ :=
    verdict_judges_clauses_as_written (by decide) (by decide) (by decide) hgrid rfl rfl hread
  rw [hverdict] at hsuccess
  exact ⟨_, clauses, verdict, hread, hclauses, hverdict, hjudges, Option.some.inj hsuccess⟩

end LossyConsensus.Source
