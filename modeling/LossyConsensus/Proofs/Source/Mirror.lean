/-
# Mirror images of clauses

The mirror image of a clause has its sides exchanged and its relation turned round, so
both say the same.  Both are read as one condition, unless each name of the clause
stands for both reports: then the reader goes by position and reads the two as opposite
conditions.  That takes reports whose names overlap, as one name for both or the letter
of the other report does.
-/

import LossyConsensus.Proofs.Source.Clause

namespace LossyConsensus.Source

open LossyConsensus.Protocol LossyConsensus.Study LossyConsensus.Text

/-- The clause with its sides exchanged and its relation turned round. -/
def Clause.mirror (clause : Clause) : Clause :=
  { clause with
    left := clause.right
    relation := clause.relation.converse
    right := clause.left }

/-- A name that stands for both reports. -/
def Names.IsShared (names : Names) (name : String) : Prop :=
  names.isFirst name = true ∧ names.isSecond name = true

/-- A clause that does not tell by its names which report is on the left. -/
def Clause.IsAmbiguous (names : Names) (clause : Clause) : Prop :=
  names.IsShared clause.left ∧ names.IsShared clause.right

instance (names : Names) (name : String) : Decidable (names.IsShared name) :=
  inferInstanceAs (Decidable (_ ∧ _))

instance (names : Names) (clause : Clause) : Decidable (clause.IsAmbiguous names) :=
  inferInstanceAs (Decidable (_ ∧ _))

variable {names : Names} {relation : Relation} {clause : Clause}

theorem converse_converse (relation : Relation) : relation.converse.converse = relation := by
  cases relation <;> rfl

theorem converse_ne (h : relation ∈ writtenRelations) : relation.converse ≠ relation := by
  revert relation
  decide

/-- A clause that is not ambiguous and its mirror image have one condition. -/
theorem Clause.read?_mirror (h : ¬ clause.IsAmbiguous names) :
    clause.mirror.read? names = clause.read? names := by
  simp only [Clause.read?, Clause.mirror, converse_converse]
  rw [Bool.and_comm (names.isFirst clause.right), Bool.and_comm (names.isSecond clause.right)]
  by_cases hstraight : (names.isFirst clause.left && names.isSecond clause.right) = true
  · have hreversed : ¬ (names.isSecond clause.left && names.isFirst clause.right) = true := by
      intro hreversed
      rw [Bool.and_eq_true] at hstraight hreversed
      exact h ⟨⟨hstraight.1, hreversed.1⟩, hreversed.2, hstraight.2⟩
    rw [if_neg hreversed, if_pos hstraight, if_pos hstraight]
  · rw [if_neg hstraight, if_neg hstraight]

/-- An ambiguous clause is read by position. -/
theorem Clause.read?_of_isAmbiguous (h : clause.IsAmbiguous names) :
    clause.read? names =
      some ⟨clause.side, clause.threshold, clause.metric, clause.relation⟩ := by
  rw [Clause.read?, if_pos (by rw [h.1.1, h.2.2, Bool.and_self])]

theorem Clause.IsAmbiguous.mirror (h : clause.IsAmbiguous names) :
    clause.mirror.IsAmbiguous names :=
  ⟨h.2, h.1⟩

/-- Names of reports that do not overlap share no name. -/
theorem not_isShared (hnames : names.first ≠ names.second) (hfirst : names.first ≠ "B")
    (hsecond : names.second ≠ "A") (name : String) : ¬ names.IsShared name := by
  rintro ⟨hisFirst, hisSecond⟩
  simp only [Names.isFirst, Names.isSecond, Bool.or_eq_true, beq_iff_eq] at hisFirst hisSecond
  rcases hisFirst with rfl | rfl
  · exact hisSecond.elim hnames hfirst
  · exact hisSecond.elim hsecond.symm (by decide)

/-- Clauses and their images, pair by pair, give the same conditions unless a clause is
ambiguous. -/
theorem map_read?_of_images {clauses others : List Clause}
    (himages : List.Forall₂ (fun clause other => other = clause ∨ other = clause.mirror)
      clauses others) (hclear : ∀ clause ∈ clauses, ¬ clause.IsAmbiguous names) :
    others.map (·.read? names) = clauses.map (·.read? names) := by
  induction himages with
  | nil => rfl
  | cons himage _ ih =>
      rw [List.forall_mem_cons] at hclear
      rw [List.map_cons, List.map_cons, ih hclear.2]
      rcases himage with rfl | rfl
      · rfl
      · rw [Clause.read?_mirror hclear.1]

theorem readsClauses_iff_map {clauses : List Clause} {conditions : List Condition} :
    ReadsClauses names clauses conditions ↔
      List.Forall₂ (fun found condition => found = some condition)
        (clauses.map (·.read? names)) conditions := by
  rw [List.forall₂_map_left_iff]
  rfl

/-- Texts whose clauses are equal or mirror images, pair by pair, are read alike if no
clause is ambiguous; and if the names do not overlap, none is.  An ambiguous clause is
never refused: its two images are read as opposite conditions, each by position. -/
theorem mirrored_clauses_read_alike (names : Names) :
    (∀ (clauses others : List Clause) (text mirrored : String), WritesConditions clauses text →
      WritesConditions others mirrored →
      List.Forall₂ (fun clause other => other = clause ∨ other = clause.mirror) clauses others →
      (∀ clause ∈ clauses, ¬ clause.IsAmbiguous names) →
      ∀ conditions, readConditions names text = .ok conditions ↔
        readConditions names mirrored = .ok conditions) ∧
    (names.first ≠ names.second → names.first ≠ "B" → names.second ≠ "A" →
      ∀ clause : Clause, ¬ clause.IsAmbiguous names) ∧
    (∀ (clause : Clause) (text mirrored : String), WritesConditions [clause] text →
      WritesConditions [clause.mirror] mirrored → clause.IsAmbiguous names →
      ∃ condition other, readConditions names text = .ok [condition] ∧
        readConditions names mirrored = .ok [other] ∧
        other = { condition with relation := condition.relation.converse } ∧
        other.relation ≠ condition.relation) := by
  refine ⟨?_, ?_, ?_⟩
  · intro clauses others text mirrored htext hmirrored himages hclear conditions
    rw [readConditions_eq_ok_iff htext, readConditions_eq_ok_iff hmirrored, readsClauses_iff_map,
      readsClauses_iff_map, map_read?_of_images himages hclear]
  · intro hnames hfirst hsecond clause hambiguous
    exact not_isShared hnames hfirst hsecond clause.left hambiguous.1
  · intro clause text mirrored htext hmirrored hambiguous
    have hrelation : clause.relation ∈ writtenRelations := (htext.parts_mem List.mem_cons_self).2
    have hread : readConditions names text = .ok [_] :=
      (readConditions_eq_ok_iff htext).mpr (.cons (Clause.read?_of_isAmbiguous hambiguous) .nil)
    have hother : readConditions names mirrored = .ok [_] :=
      (readConditions_eq_ok_iff hmirrored).mpr
        (.cons (Clause.read?_of_isAmbiguous hambiguous.mirror) .nil)
    exact ⟨_, _, hread, hother, rfl, converse_ne hrelation⟩

/-- The value of the numeral in the headers below. -/
def oneHalf : Float :=
  (Decimal.readReal? "0.5".toList).getD 0

/-- Above one half, the consensus of two names is related. -/
def consensusAbove (left : String) (relation : Relation) (right : String) : Clause :=
  ⟨.above, oneHalf, left, .consensus, relation, right⟩

theorem writesSelection_oneHalf : WritesSelection .above oneHalf "for p > 0.5:".toList :=
  writesSelection_iff.mpr ⟨by decide, "0.5".toList, by decide, rfl⟩

/-- The text of a comparison above one half. -/
def aboveHalf (comparison : String) : String :=
  "for p > 0.5:\n" ++ comparison ++ "\n"

theorem writesConditions_aboveHalf {left right comparison : String}
    (hlines : filledLines (aboveHalf comparison) = ["for p > 0.5:".toList, comparison.toList])
    (hline : comparisonLine? comparison.toList =
      some (consensusAbove left relation right).comparison) :
    WritesConditions [consensusAbove left relation right] (aboveHalf comparison) := by
  rw [WritesConditions, hlines]
  exact .cons writesSelection_oneHalf (comparisonLine?_eq_some_iff.mp hline) .nil

/-- With names that do not overlap the images of a clause are read alike; with the
letters of the reports exchanged they are read by position. -/
theorem ampAndFv_and_exchanged_letters_mirrored :
    (∀ conditions, readConditions ⟨"AMP", "FV"⟩ (aboveHalf "AMP.consensus >= FV.consensus") =
        .ok conditions ↔
      readConditions ⟨"AMP", "FV"⟩ (aboveHalf "FV.consensus <= AMP.consensus") = .ok conditions) ∧
    ∃ condition other,
      readConditions ⟨"B", "A"⟩ (aboveHalf "A.consensus > B.consensus") = .ok [condition] ∧
      readConditions ⟨"B", "A"⟩ (aboveHalf "B.consensus < A.consensus") = .ok [other] ∧
      other = { condition with relation := condition.relation.converse } ∧
      other.relation ≠ condition.relation := by
  obtain ⟨halike, hclear, -⟩ := mirrored_clauses_read_alike ⟨"AMP", "FV"⟩
  obtain ⟨-, -, hposition⟩ := mirrored_clauses_read_alike ⟨"B", "A"⟩
  constructor
  · exact halike [consensusAbove "AMP" .ge "FV"] [consensusAbove "FV" .le "AMP"] _ _
      (writesConditions_aboveHalf (by decide +kernel) rfl)
      (writesConditions_aboveHalf (by decide +kernel) rfl) (.cons (.inr rfl) .nil)
      (fun clause _ => hclear (by decide) (by decide) (by decide) clause)
  · exact hposition (consensusAbove "A" .gt "B") _ _
      (writesConditions_aboveHalf (by decide +kernel) rfl)
      (writesConditions_aboveHalf (by decide +kernel) rfl) (by decide)

/-- Two reports of one name: neither a clause nor its mirror image is refused, and they
are read as different conditions. -/
theorem one_name_of_two_reports_read_by_position :
    WritesConditions [consensusAbove "V" .gt "V"] (aboveHalf "V.consensus > V.consensus") ∧
      WritesConditions [(consensusAbove "V" .gt "V").mirror]
        (aboveHalf "V.consensus < V.consensus") ∧
      ∃ condition other : Condition,
        readConditions ⟨"V", "V"⟩ (aboveHalf "V.consensus > V.consensus") = .ok [condition] ∧
        readConditions ⟨"V", "V"⟩ (aboveHalf "V.consensus < V.consensus") = .ok [other] ∧
        condition ≠ other := by
  have habove : WritesConditions [consensusAbove "V" .gt "V"]
      (aboveHalf "V.consensus > V.consensus") :=
    writesConditions_aboveHalf (by decide +kernel) rfl
  have hbelow : WritesConditions [consensusAbove "V" .lt "V"]
      (aboveHalf "V.consensus < V.consensus") :=
    writesConditions_aboveHalf (by decide +kernel) rfl
  refine ⟨habove, hbelow, ⟨.above, oneHalf, .consensus, .gt⟩, ⟨.above, oneHalf, .consensus, .lt⟩,
    (readConditions_eq_ok_iff habove).mpr (.cons rfl .nil),
    (readConditions_eq_ok_iff hbelow).mpr (.cons rfl .nil), ?_⟩
  intro h
  cases congrArg Condition.relation h

end LossyConsensus.Source
