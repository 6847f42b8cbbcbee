/-
# Clauses of conditions

A clause is a comparison under its header as the text has it: with either report on
the left, under its name or its letter.  Conditions are read from exactly the texts
that write clauses in pairs of lines, each condition from its own clause and with the
first report on the left.
-/

import LossyConsensus.Proofs.Except
import LossyConsensus.Proofs.Source.Fragment
import LossyConsensus.Proofs.Text.Blank
import LossyConsensus.Proofs.Text.Scan
import LossyConsensus.Source.Conditions

namespace LossyConsensus.Source

open LossyConsensus.Protocol LossyConsensus.Study LossyConsensus.Text

/-- A comparison and the header above it, as they are written. -/
structure Clause where
  side : Side
  threshold : Float
  left : String
  metric : Metric
  relation : Relation
  right : String

/-- The condition of a clause, with the first report on the left: the clause as it
stands if its names allow that, or else with its sides exchanged. -/
def Clause.read? (names : Names) (clause : Clause) : Option Condition :=
  if names.isFirst clause.left && names.isSecond clause.right then
    some ⟨clause.side, clause.threshold, clause.metric, clause.relation⟩
  else if names.isSecond clause.left && names.isFirst clause.right then
    some ⟨clause.side, clause.threshold, clause.metric, clause.relation.converse⟩
  else none

/-- Conditions are read from clauses, each from its own one. -/
def ReadsClauses (names : Names) (clauses : List Clause) (conditions : List Condition) : Prop :=
  List.Forall₂ (fun clause condition => clause.read? names = some condition) clauses conditions

/-! ## The texts of clauses -/

/-- A name as a comparison has it: a letter or an underscore, then characters of words
and hyphens. -/
structure IsReportName (name : List Char) : Prop where
  front : ∃ c rest, name = c :: rest ∧ (c.isAlpha = true ∨ c = '_')
  chars : ∀ c ∈ name, isWordChar c = true ∨ c = '-'

/-- A header line: `for`, a space, `p`, the side and a numeral, closed by a colon.
More blanks may follow the space and stand around the other parts. -/
inductive WritesSelection (side : Side) (threshold : Float) : List Char → Prop
  | intro {gap before between numeral after closing : List Char} (hgap : Blanks gap)
      (hbefore : Blanks before) (hbetween : Blanks between) (hafter : Blanks after)
      (hclosing : Blanks closing) (hchars : ∀ c ∈ numeral, isThresholdChar c = true)
      (hvalue : Decimal.readReal? numeral = some threshold) :
      WritesSelection side threshold ("for ".toList ++ gap ++ "p".toList ++ before ++
        side.sign.toList ++ between ++ numeral ++ after ++ ":".toList ++ closing)

/-- The metrics that a text can name. -/
def writtenMetrics : List Metric :=
  [.consensus, .discrepancy]

/-- The relations that a comparison can state. -/
def writtenRelations : List Relation :=
  [.ge, .le, .gt, .lt]

/-- A metric under the name of a report. -/
def metricOf (name : List Char) (metric : Metric) : List Char :=
  name ++ ".".toList ++ metric.name.toList

/-- A comparison line: a relation between two metrics, with blanks around its sign. -/
inductive WritesComparison : Comparison → List Char → Prop
  | intro {left before after right closing : List Char} {leftMetric rightMetric : Metric}
      {relation : Relation} (hleft : IsReportName left) (hright : IsReportName right)
      (hleftMetric : leftMetric ∈ writtenMetrics) (hrightMetric : rightMetric ∈ writtenMetrics)
      (hrelation : relation ∈ writtenRelations) (hbefore : Blanks before) (hafter : Blanks after)
      (hclosing : Blanks closing) :
      WritesComparison ⟨String.ofList left, leftMetric, relation, String.ofList right, rightMetric⟩
        (metricOf left leftMetric ++ before ++ relation.sign.toList ++ after ++
          metricOf right rightMetric ++ closing)

/-- The comparison of a clause: one metric of both reports. -/
def Clause.comparison (clause : Clause) : Comparison :=
  ⟨clause.left, clause.metric, clause.relation, clause.right, clause.metric⟩

/-- Lines in pairs, the header of a clause before its comparison. -/
inductive WritesClauses : List Clause → List (List Char) → Prop
  | nil : WritesClauses [] []
  | cons {clause : Clause} {clauses : List Clause} {header line : List Char}
      {rest : List (List Char)} (hheader : WritesSelection clause.side clause.threshold header)
      (hline : WritesComparison clause.comparison line) (hrest : WritesClauses clauses rest) :
      WritesClauses (clause :: clauses) (header :: line :: rest)

/-- The lines of a text that are not blank, trimmed. -/
def filledLines (text : String) : List (List Char) :=
  ((lines text.toList).map trim).filter fun line => !line.isEmpty

/-- A text that consists of clauses and blank lines. -/
def WritesConditions (clauses : List Clause) (text : String) : Prop :=
  WritesClauses clauses (filledLines text)

variable {names : Names} {text line header numeral rest : List Char} {side : Side}
  {threshold : Float} {metric : Metric} {relation : Relation} {comparison : Comparison}
  {clause : Clause} {condition : Condition}

/-! ## Headers -/

theorem isThresholdChar_of_isBlank {c : Char} (h : isBlank c = true) :
    isThresholdChar c = false := by
  simpa using forall_isBlank (fun c => !isThresholdChar c) (by decide) h

theorem not_blank_of_isThresholdChar {c : Char} (h : isThresholdChar c = true) :
    isBlank c = false :=
  isBlank_eq_false (fun c => !isThresholdChar c) (by decide) (by simpa using h)

/-- A text behind a gap begins with a blank or as it does without the gap. -/
theorem head?_gap {gap : List Char} {c d : Char} (hgap : Blanks gap)
    (h : d ∈ (gap ++ c :: rest).head?) : isBlank d = true ∨ d = c := by
  cases gap with
  | nil => exact .inr (Option.some.inj h).symm
  | cons b gap =>
      obtain rfl : b = d := Option.some.inj h
      exact .inl hgap.head

/-- A side at the front of a text, and what follows it. -/
def side? (text : List Char) : Option (Side × List Char) :=
  match trimLeft text with
  | '>' :: rest => some (.above, rest)
  | '<' :: rest => some (.below, rest)
  | _ => none

/-- The characters of a numeral between blanks that only a colon follows. -/
def numeralBeforeColon? (text : List Char) : Option (List Char) :=
  let rest := trimLeft text
  if (rest.takeWhile isThresholdChar).isEmpty then none
  else if trimRight (trimLeft (rest.dropWhile isThresholdChar)) == [':'] then
    some (rest.takeWhile isThresholdChar)
  else none

theorem map_numeralBeforeColon? (side : Side) (text : List Char) :
    (numeralBeforeColon? text).map (side, ·) =
      if ((trimLeft text).takeWhile isThresholdChar).isEmpty then none
      else if trimRight (trimLeft ((trimLeft text).dropWhile isThresholdChar)) == [':'] then
        some (side, (trimLeft text).takeWhile isThresholdChar)
      else none := by
  simp only [numeralBeforeColon?, apply_ite (Option.map _), Option.map_none, Option.map_some]

theorem side?_eq_none (habove : ∀ rest, trimLeft text = '>' :: rest → False)
    (hbelow : ∀ rest, trimLeft text = '<' :: rest → False) : side? text = none := by
  rw [side?]
  split
  · next rest hrest => exact (habove rest hrest).elim
  · next rest hrest => exact (hbelow rest hrest).elim
  · rfl

/-- A header is read part by part: its words, its side, its numeral. -/
theorem conditionHeader?_eq (text : List Char) :
    conditionHeader? text =
      (((after? "for".toList text).bind blanks?).bind (after? "p".toList)).bind fun rest =>
        (side? rest).bind fun (side, rest) => (numeralBeforeColon? rest).map (side, ·) := by
  rw [conditionHeader?]
  cases after? "for".toList text with
  | none => rfl
  | some afterFor =>
      simp only [Option.bind_eq_bind, Option.bind_some]
      cases blanks? afterFor with
      | none => rfl
      | some afterGap =>
          simp only [Option.bind_some]
          cases after? "p".toList afterGap with
          | none => rfl
          | some afterP =>
              simp only [Option.bind_some]
              split
              · next rest hrest =>
                have hside : side? afterP = some (.above, rest) := by simp only [side?, hrest]
                rw [hside, Option.bind_some]
                exact (map_numeralBeforeColon? .above rest).symm
              · next rest hrest =>
                have hside : side? afterP = some (.below, rest) := by simp only [side?, hrest]
                rw [hside, Option.bind_some]
                exact (map_numeralBeforeColon? .below rest).symm
              · next habove hbelow =>
                rw [side?_eq_none habove hbelow]
                rfl

theorem side?_eq_some_iff : side? text = some (side, rest) ↔
    ∃ gap, Blanks gap ∧ text = gap ++ side.sign.toList ++ rest := by
  constructor
  · intro h
    obtain ⟨gap, hgap, hparts⟩ := exists_trimLeft text
    refine ⟨gap, hgap, ?_⟩
    rw [side?] at h
    split at h
    · next found hfound =>
      cases h
      rw [hparts, hfound, List.append_assoc]
      rfl
    · next found hfound =>
      cases h
      rw [hparts, hfound, List.append_assoc]
      rfl
    · cases h
  · rintro ⟨gap, hgap, rfl⟩
    rw [side?, List.append_assoc, trimLeft_append hgap]
    cases side <;> rfl

theorem numeralBeforeColon?_eq_some_iff : numeralBeforeColon? text = some numeral ↔
    numeral ≠ [] ∧ (∀ c ∈ numeral, isThresholdChar c = true) ∧
      ∃ between after closing, Blanks between ∧ Blanks after ∧ Blanks closing ∧
        text = between ++ numeral ++ after ++ ":".toList ++ closing := by
  constructor
  · intro h
    obtain ⟨between, hbetween, hparts⟩ := exists_trimLeft text
    simp only [numeralBeforeColon?] at h
    generalize trimLeft text = rest at h hparts
    split at h
    · cases h
    · next hsome =>
      split at h
      · next hcolon =>
        cases h
        obtain ⟨after, closing, hafter, hclosing, htail⟩ :=
          exists_trim (rest.dropWhile isThresholdChar)
        rw [trim, beq_iff_eq.mp hcolon] at htail
        refine ⟨fun hnil => hsome (List.isEmpty_iff.mpr hnil),
          fun c hc => List.mem_takeWhile_imp hc, between, after, closing, hbetween, hafter,
          hclosing, ?_⟩
        calc
          text = between ++ (rest.takeWhile isThresholdChar ++ rest.dropWhile isThresholdChar) := by
            rw [List.takeWhile_append_dropWhile, hparts]
          _ = between ++ (rest.takeWhile isThresholdChar ++ (after ++ [':'] ++ closing)) := by
            rw [← htail]
          _ = _ := by simp only [List.append_assoc]; rfl
      · cases h
  · rintro ⟨hsome, hchars, between, after, closing, hbetween, hafter, hclosing, rfl⟩
    have hcolon : Trimmed [':'] := ⟨⟨':', [], rfl, by decide⟩, ⟨[], ':', rfl, by decide⟩⟩
    have htail : ∀ c ∈ (after ++ [':'] ++ closing).head?, isThresholdChar c = false := by
      intro c hc
      rw [List.append_assoc] at hc
      rcases head?_gap hafter hc with hblank | rfl
      · exact isThresholdChar_of_isBlank hblank
      · rfl
    obtain ⟨c, numeral, rfl⟩ := List.exists_cons_of_ne_nil hsome
    have hleft : trimLeft (between ++ (c :: numeral) ++ after ++ ":".toList ++ closing) =
        (c :: numeral) ++ (after ++ [':'] ++ closing) := by
      simp only [List.append_assoc, trimLeft_append hbetween]
      exact trimLeft_cons (not_blank_of_isThresholdChar (hchars c List.mem_cons_self))
    have htrim := hcolon.trim_eq hafter hclosing
    rw [trim] at htrim
    simp only [numeralBeforeColon?, hleft, takeWhile_run hchars htail, dropWhile_run hchars htail,
      htrim, List.isEmpty_cons, Bool.false_eq_true, if_false, beq_self_eq_true, if_true]

theorem blanks?_after_for (rest : List Char) :
    (after? "for".toList ("for ".toList ++ rest)).bind blanks? = some (trimLeft rest) :=
  rfl

/-- The reader takes exactly the headers that are written. -/
theorem writesSelection_iff : WritesSelection side threshold header ↔
    startsWith "for ".toList header = true ∧ ∃ numeral,
      conditionHeader? header = some (side, numeral) ∧
        Decimal.readReal? numeral = some threshold := by
  constructor
  · rintro ⟨hgap, hbefore, hbetween, hafter, hclosing, hchars, hvalue⟩
    rename_i gap before between numeral after closing
    simp only [List.append_assoc]
    refine ⟨startsWith_iff.mpr (List.prefix_append _ _), numeral, ?_, hvalue⟩
    have hp (rest : List Char) : trimLeft (gap ++ ("p".toList ++ rest)) = "p".toList ++ rest :=
      (trimLeft_append hgap).trans (trimLeft_cons (by decide))
    have hsome : numeral ≠ [] := by
      rintro rfl
      cases hvalue
    have hnumeral : numeralBeforeColon?
        (between ++ (numeral ++ (after ++ (":".toList ++ closing)))) = some numeral :=
      numeralBeforeColon?_eq_some_iff.mpr ⟨hsome, hchars, between, after, closing, hbetween,
        hafter, hclosing, by simp only [List.append_assoc]⟩
    have hside (rest : List Char) : side? (before ++ (side.sign.toList ++ rest)) =
        some (side, rest) :=
      side?_eq_some_iff.mpr ⟨before, hbefore, (List.append_assoc _ _ _).symm⟩
    rw [conditionHeader?_eq, blanks?_after_for, hp, Option.bind_some, after?_append,
      Option.bind_some, hside, Option.bind_some]
    exact congrArg (Option.map (side, ·)) hnumeral
  · rintro ⟨hstart, numeral, h, hvalue⟩
    obtain ⟨rest, rfl⟩ := startsWith_iff.mp hstart
    rw [conditionHeader?_eq, blanks?_after_for, Option.bind_some] at h
    obtain ⟨afterP, hp, h⟩ := Option.bind_eq_some_iff.mp h
    obtain ⟨⟨found, afterSign⟩, hside, h⟩ := Option.bind_eq_some_iff.mp h
    obtain ⟨written, hwritten, hfound⟩ := Option.map_eq_some_iff.mp h
    cases hfound
    obtain ⟨gap, hgap, hrest⟩ := exists_trimLeft rest
    obtain ⟨before, hbefore, rfl⟩ := side?_eq_some_iff.mp hside
    obtain ⟨-, hchars, between, after, closing, hbetween, hafter, hclosing, rfl⟩ :=
      numeralBeforeColon?_eq_some_iff.mp hwritten
    rw [hrest, after?_eq_some_iff.mp hp]
    simp only [← List.append_assoc]
    exact .intro hgap hbefore hbetween hafter hclosing hchars hvalue

/-! ## Comparisons -/

/-- A metric stands at the front of its own name only. -/
theorem findSome?_metric {α : Type} (found : Metric → List Char → α)
    (hmetric : metric ∈ writtenMetrics) (rest : List Char) :
    (writtenMetrics.findSome? fun other =>
      (after? other.name.toList (metric.name.toList ++ rest)).map (found other)) =
        some (found metric rest) := by
  rcases List.mem_pair.mp hmetric with rfl | rfl <;> rfl

theorem exists_of_namedMetric? {name : String}
    (h : namedMetric? text = some (name, metric, rest)) :
    ∃ written, IsReportName written ∧ metric ∈ writtenMetrics ∧ name = String.ofList written ∧
      text = metricOf written metric ++ rest := by
  simp only [namedMetric?] at h
  split at h
  · cases h
  · next hfront =>
    obtain ⟨found, hfound, h⟩ := Option.bind_eq_some_iff.mp h
    obtain ⟨other, hmetric, hother⟩ := List.exists_of_findSome?_eq_some h
    obtain ⟨tail, htail, heq⟩ := Option.map_eq_some_iff.mp hother
    cases heq
    refine ⟨_, ⟨?_, ?_⟩, hmetric, rfl, ?_⟩
    · cases text with
      | nil => exact absurd rfl hfront
      | cons c text =>
          have hletter : c.isAlpha = true ∨ c = '_' := by
            simpa [or_iff_not_imp_left] using hfront
          have hname : (isWordChar c || c == '-') = true := by
            rw [isWordChar_of_word (word_of_letter hletter), Bool.true_or]
          exact ⟨c, _, List.takeWhile_cons_of_pos hname, hletter⟩
    · intro c hc
      simpa using List.mem_takeWhile_imp hc
    · rw [metricOf, List.append_assoc, List.append_assoc, ← after?_eq_some_iff.mp htail,
        ← after?_eq_some_iff.mp hfound, List.takeWhile_append_dropWhile]

namespace IsReportName

variable {name gap : List Char}

theorem namedMetric?_eq (h : IsReportName name) (hmetric : metric ∈ writtenMetrics)
    (rest : List Char) :
    namedMetric? (metricOf name metric ++ rest) = some (String.ofList name, metric, rest) := by
  obtain ⟨first, tail, hfront, hletter⟩ := h.front
  have hchars : ∀ c ∈ name, (isWordChar c || c == '-') = true := by
    intro c hc
    rw [Bool.or_eq_true, beq_iff_eq]
    exact h.chars c hc
  have hstop : ∀ c ∈ (".".toList ++ (metric.name.toList ++ rest)).head?,
      (isWordChar c || c == '-') = false := by
    rintro c hc
    obtain rfl : '.' = c := Option.some.inj hc
    decide
  have hfirst : (name ++ (".".toList ++ (metric.name.toList ++ rest))).head?.any
      (fun c => c.isAlpha || c == '_') = true := by
    rw [hfront, List.cons_append, List.head?_cons, Option.any_some, Bool.or_eq_true, beq_iff_eq]
    exact hletter
  simp only [namedMetric?, metricOf, List.append_assoc, takeWhile_run hchars hstop,
    dropWhile_run hchars hstop, after?_append, Option.bind_eq_bind, Option.bind_some, hfirst,
    Bool.not_true, Bool.false_eq_true, if_false]
  exact findSome?_metric (fun other rest => (String.ofList name, other, rest)) hmetric rest

theorem trimLeft_metricOf (h : IsReportName name) (hgap : Blanks gap) (rest : List Char) :
    trimLeft (gap ++ (metricOf name metric ++ rest)) = metricOf name metric ++ rest := by
  obtain ⟨first, tail, hfront, hletter⟩ := h.front
  rw [trimLeft_append hgap, metricOf, hfront]
  exact trimLeft_cons (isBlank_of_word (word_of_letter hletter))

theorem head?_metricOf_ne (h : IsReportName name) (hgap : Blanks gap) (metric : Metric)
    (rest : List Char) :
    ∀ c ∈ (gap ++ (metricOf name metric ++ rest)).head?, c ≠ '=' := by
  obtain ⟨first, tail, hfront, hletter⟩ := h.front
  rintro c hc rfl
  rw [metricOf, hfront] at hc
  rcases head?_gap hgap hc with hblank | rfl
  · exact absurd hblank (by decide)
  · exact absurd hletter (by decide)

end IsReportName

/-- A relation stands at the front of its own sign only, if the sign does not go on. -/
theorem findSome?_relation (hrelation : relation ∈ writtenRelations)
    (hrest : ∀ c ∈ rest.head?, c ≠ '=') :
    (writtenRelations.findSome? fun other =>
      (after? other.sign.toList (relation.sign.toList ++ rest)).map fun rest => (other, rest)) =
        some (relation, rest) := by
  have hequals : after? ['='] rest = none := by
    cases rest with
    | nil => rfl
    | cons c rest => exact after?_cons_ne (hrest c rfl).symm
  -- The longer signs are tried first, and each begins with a shorter one.
  have hge : after? Relation.ge.sign.toList (Relation.gt.sign.toList ++ rest) = none := hequals
  have hle : after? Relation.le.sign.toList (Relation.lt.sign.toList ++ rest) = none := hequals
  simp only [writtenRelations, List.mem_cons, List.not_mem_nil, or_false] at hrelation
  rcases hrelation with rfl | rfl | rfl | rfl
  · rfl
  · rfl
  · rw [writtenRelations, List.findSome?_cons, hge]
    rfl
  · have hge : after? Relation.ge.sign.toList (Relation.lt.sign.toList ++ rest) = none := rfl
    rw [writtenRelations, List.findSome?_cons, hge, Option.map_none, List.findSome?_cons, hle]
    rfl

theorem trimLeft_sign {gap : List Char} (hgap : Blanks gap) (relation : Relation)
    (rest : List Char) :
    trimLeft (gap ++ (relation.sign.toList ++ rest)) = relation.sign.toList ++ rest := by
  rw [trimLeft_append hgap]
  cases relation <;> exact trimLeft_cons (by decide)

theorem writesComparison_of_comparisonLine? (h : comparisonLine? line = some comparison) :
    WritesComparison comparison line := by
  obtain ⟨⟨left, leftMetric, rest⟩, hleft, h⟩ := Option.bind_eq_some_iff.mp h
  obtain ⟨⟨relation, tail⟩, hsign, h⟩ := Option.bind_eq_some_iff.mp h
  obtain ⟨⟨right, rightMetric, last⟩, hright, h⟩ := Option.bind_eq_some_iff.mp h
  dsimp only at h
  split at h
  · next hlast =>
    cases h
    obtain ⟨left, hleftName, hleftMetric, rfl, rfl⟩ := exists_of_namedMetric? hleft
    obtain ⟨right, hrightName, hrightMetric, rfl, hrightText⟩ := exists_of_namedMetric? hright
    obtain ⟨found, hrelation, hfound⟩ := List.exists_of_findSome?_eq_some hsign
    obtain ⟨afterSign, hafterSign, heq⟩ := Option.map_eq_some_iff.mp hfound
    cases heq
    obtain ⟨before, hbefore, hrest⟩ := exists_trimLeft rest
    obtain ⟨after, hafter, htail⟩ := exists_trimLeft tail
    obtain ⟨closing, hclosing, hend⟩ := exists_trimLeft last
    rw [List.isEmpty_iff.mp hlast, List.append_nil] at hend
    rw [hrest, after?_eq_some_iff.mp hafterSign, htail, hrightText, hend]
    simp only [← List.append_assoc]
    exact .intro hleftName hrightName hleftMetric hrightMetric hrelation hbefore hafter hclosing
  · cases h

theorem WritesComparison.comparisonLine?_eq (h : WritesComparison comparison line) :
    comparisonLine? line = some comparison := by
  obtain ⟨hleft, hright, hleftMetric, hrightMetric, hrelation, hbefore, hafter, hclosing⟩ := h
  rename_i left before after right closing leftMetric rightMetric relation
  have hend : trimLeft closing = [] := by
    have h : trimLeft (closing ++ []) = [] := trimLeft_append hclosing
    rwa [List.append_nil] at h
  have hsign := findSome?_relation hrelation (hright.head?_metricOf_ne hafter rightMetric closing)
  rw [writtenRelations] at hsign
  simp only [comparisonLine?, List.append_assoc, hleft.namedMetric?_eq hleftMetric,
    trimLeft_sign hbefore, hsign, hright.trimLeft_metricOf hafter,
    hright.namedMetric?_eq hrightMetric, hend, Option.bind_eq_bind, Option.bind_some,
    List.isEmpty_nil, if_true]

/-- The reader takes exactly the comparisons that are written. -/
theorem comparisonLine?_eq_some_iff :
    comparisonLine? line = some comparison ↔ WritesComparison comparison line :=
  ⟨writesComparison_of_comparisonLine?, WritesComparison.comparisonLine?_eq⟩

/-! ## Conditions -/

/-- The reader of a comparison that states a clause finds the clause's condition. -/
theorem readComparison_written (h : WritesComparison clause.comparison line) :
    readComparison names clause.side clause.threshold line =
      match clause.read? names with
      | some condition => .ok condition
      | none => .error (.unknownNames (String.ofList line) names) := by
  rw [readComparison, comparisonLine?_eq_some_iff.mpr h, Clause.read?]
  refine (if_neg (by simp [Clause.comparison])).trans ?_
  by_cases hstraight : (names.isFirst clause.left && names.isSecond clause.right) = true
  · rw [if_pos hstraight]
    exact if_pos hstraight
  · rw [if_neg hstraight]
    refine (if_neg hstraight).trans ?_
    by_cases hreversed : (names.isSecond clause.left && names.isFirst clause.right) = true
    · rw [if_pos hreversed]
      exact if_pos hreversed
    · rw [if_neg hreversed]
      exact if_neg hreversed

theorem readComparison_eq_ok_iff :
    readComparison names side threshold line = .ok condition ↔
      ∃ clause : Clause, clause.side = side ∧ clause.threshold = threshold ∧
        WritesComparison clause.comparison line ∧ clause.read? names = some condition := by
  constructor
  · intro h
    have hparts : ∃ clause : Clause, clause.side = side ∧ clause.threshold = threshold ∧
        WritesComparison clause.comparison line := by
      rw [readComparison] at h
      split at h
      · cases h
      · next comparison hline =>
        obtain ⟨left, leftMetric, relation, right, rightMetric⟩ := comparison
        dsimp only at h
        split at h
        · cases h
        · next hsame =>
          obtain rfl : leftMetric = rightMetric := by simpa using hsame
          exact ⟨⟨side, threshold, left, leftMetric, relation, right⟩, rfl, rfl,
            comparisonLine?_eq_some_iff.mp hline⟩
    obtain ⟨clause, rfl, rfl, hline⟩ := hparts
    rw [readComparison_written hline] at h
    split at h
    · next hread =>
      cases h
      exact ⟨clause, rfl, rfl, hline, hread⟩
    · cases h
  · rintro ⟨clause, rfl, rfl, hline, hread⟩
    rw [readComparison_written hline, hread]

theorem readPairs_eq_ok_iff {lines : List (Nat × List Char)} {conditions : List Condition} :
    readPairs names lines = .ok conditions ↔
      ∃ clauses, WritesClauses clauses (lines.map (·.2)) ∧
        ReadsClauses names clauses conditions := by
  constructor
  · intro h
    -- Of the six ways through the reader only the last one reads a pair.
    fun_induction readPairs names lines generalizing conditions with
    | case1 =>
        cases h
        exact ⟨[], .nil, .nil⟩
    | case2 | case3 | case4 | case5 => cases h
    | case6 number header hstart side numeral second line rest hheader threshold hvalue ih =>
        rw [Bool.not_eq_true', Bool.not_eq_false] at hstart
        obtain ⟨condition, hcondition, h⟩ := bind_eq_ok.mp h
        obtain ⟨later, hlater, h⟩ := bind_eq_ok.mp h
        obtain rfl := pure_eq_ok.mp h
        obtain ⟨clause, rfl, rfl, hline, hread⟩ :=
          readComparison_eq_ok_iff.mp (mapError_eq_ok.mp hcondition)
        obtain ⟨clauses, hwritten, hreads⟩ := ih hlater
        exact ⟨clause :: clauses,
          .cons (writesSelection_iff.mpr ⟨hstart, numeral, hheader, hvalue⟩) hline hwritten,
          .cons hread hreads⟩
  · rintro ⟨clauses, hwritten, hreads⟩
    generalize htexts : lines.map (·.2) = texts at hwritten
    induction hwritten generalizing lines conditions with
    | nil =>
        cases hreads
        rw [List.map_eq_nil_iff.mp htexts]
        rfl
    | cons hheader hline _ ih =>
        cases hreads with
        | cons hread hreads =>
            obtain ⟨⟨number, header⟩, more, rfl, rfl, hmore⟩ := List.map_eq_cons_iff.mp htexts
            obtain ⟨⟨second, line⟩, rest, rfl, rfl, hrest⟩ := List.map_eq_cons_iff.mp hmore
            obtain ⟨hstart, numeral, hheader, hvalue⟩ := writesSelection_iff.mp hheader
            have hcondition := readComparison_eq_ok_iff.mpr ⟨_, rfl, rfl, hline, hread⟩
            rw [readPairs.eq_def]
            simp only [hstart, hheader, hvalue, hcondition, ih hreads hrest, Bool.not_true,
              Bool.false_eq_true, if_false]
            rfl

/-- Conditions are read from exactly the texts that write clauses, if the names of each
clause allow it. -/
theorem exists_of_readConditions {text : String} {conditions : List Condition} :
    readConditions names text = .ok conditions ↔
      ∃ clauses, WritesConditions clauses text ∧ ReadsClauses names clauses conditions := by
  rw [readConditions, readPairs_eq_ok_iff]
  refine exists_congr fun clauses => and_congr_left fun _ => ?_
  rw [WritesConditions, filledLines, ← map_snd_numberedLines, List.map_map, List.filter_map,
    List.filter_map, List.map_map]
  rfl

theorem WritesComparison.parts_mem (h : WritesComparison comparison line) :
    comparison.leftMetric ∈ writtenMetrics ∧ comparison.relation ∈ writtenRelations := by
  cases h with
  | intro _ _ hmetric _ hrelation => exact ⟨hmetric, hrelation⟩

theorem WritesClauses.parts_mem {clauses : List Clause} {lines : List (List Char)}
    (h : WritesClauses clauses lines) (hclause : clause ∈ clauses) :
    clause.metric ∈ writtenMetrics ∧ clause.relation ∈ writtenRelations := by
  induction h with
  | nil => cases hclause
  | cons _ hline _ ih =>
      rcases List.mem_cons.mp hclause with rfl | hclause
      · exact hline.parts_mem
      · exact ih hclause

theorem WritesSelection.unique {side' : Side} {threshold' : Float}
    (h : WritesSelection side threshold header) (h' : WritesSelection side' threshold' header) :
    side' = side ∧ threshold' = threshold := by
  obtain ⟨_, numeral, hheader, hvalue⟩ := writesSelection_iff.mp h
  obtain ⟨_, numeral', hheader', hvalue'⟩ := writesSelection_iff.mp h'
  rw [hheader] at hheader'
  cases hheader'
  rw [hvalue] at hvalue'
  cases hvalue'
  exact ⟨rfl, rfl⟩

/-- Lines write one list of clauses at most. -/
theorem WritesClauses.unique {clauses others : List Clause} {lines : List (List Char)}
    (h : WritesClauses clauses lines) (h' : WritesClauses others lines) : others = clauses := by
  induction h generalizing others with
  | nil =>
      cases h'
      rfl
  | @cons clause clauses header line rest hheader hline _ ih =>
      cases h' with
      | @cons other others _ _ _ hheader' hline' hrest' =>
          obtain ⟨hside, hthreshold⟩ := hheader.unique hheader'
          have hcomparison := comparisonLine?_eq_some_iff.mpr hline
          rw [comparisonLine?_eq_some_iff.mpr hline'] at hcomparison
          obtain ⟨side, threshold, left, metric, relation, right⟩ := clause
          obtain ⟨side', threshold', left', metric', relation', right'⟩ := other
          cases hcomparison
          obtain rfl := hside
          obtain rfl := hthreshold
          rw [ih hrest']

/-- The conditions of a text are those of the clauses that it writes. -/
theorem readConditions_eq_ok_iff {clauses : List Clause} {text : String}
    {conditions : List Condition} (h : WritesConditions clauses text) :
    readConditions names text = .ok conditions ↔ ReadsClauses names clauses conditions := by
  rw [exists_of_readConditions]
  constructor
  · rintro ⟨others, hothers, hreads⟩
    rwa [h.unique hothers] at hreads
  · exact fun hreads => ⟨clauses, h, hreads⟩

end LossyConsensus.Source
