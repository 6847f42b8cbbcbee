/-
# Conditions follow the grammar of predicates

A whole text that derives a predicate is read as this predicate.  A predicate that is
printed with parentheses around every operand derives from the grammar, hence it is read
back.  The numbers of the grammar have no more digits than the reader takes.
-/

import LossyConsensus.Proofs.Source.Predicate

namespace LossyConsensus.Source

open LossyConsensus.Decimal LossyConsensus.Protocol LossyConsensus.Text

variable {limit : Option Nat} {p : Predicate Float} {e : Expr Float}
  {text front back : List Char}

/-! ## Conditions -/

/-- What is taken for a conditional begins with the word for it. -/
theorem frontWord_of_ifThen? {found : List Char × List Char} (htext : IsSourceText text)
    (h : ifThen? text = some found) : frontWord text = "if".toList := by
  obtain ⟨start, hstart, hfound⟩ := Option.bind_eq_some_iff.mp h
  obtain ⟨head, rfl, hhead⟩ := (afterAnyCase?_eq_some_iff htext).mp hstart
  have hword : IsWordOf "if" head := hhead
  apply hword.frontWord_eq (by decide)
  cases start with
  | nil => rfl
  | cons c start =>
      by_cases hc : isBlank c = true
      · exact atWordEnd_cons (isWordChar_of_isBlank hc)
      · rw [List.takeWhile_cons_of_neg hc] at hfound
        cases hfound

/-- A text that does not begin as a conditional is read as it is. -/
theorem readCondition_padded {level : PredicateLevel} (h : Standing level text)
    (htext : IsSourceText text) (hfront : Blanks front) (hback : Blanks back) :
    readCondition {} (front ++ text ++ back) = readPredicate {} text := by
  have hif : ifThen? (text ++ [' ']) = none := by
    rw [Option.eq_none_iff_forall_ne_some]
    intro found hfound
    have hsource : IsSourceText (text ++ [' ']) :=
      IsSourceText.append_iff.mpr ⟨htext, by simp [IsSourceText, isSourceChar]⟩
    have hword : frontWord (text ++ [' ']) ∉ ["and".toList, "or".toList, "if".toList] :=
      h.word rfl
    rw [frontWord_of_ifThen? hsource hfound] at hword
    exact hword (by decide)
  rw [readCondition, h.trimmed.trim_eq hfront hback, hif]
  exact readPredicate_padded h.trimmed hfront hback

theorem IsCondition.readCondition_eq (h : IsCondition (some digitLimit) text p) :
    readCondition {} text = .ok p := by
  cases h with
  | intro hfront hbody hsource hback =>
      rw [readCondition_padded hbody.standing hsource hfront hback,
        hbody.readPredicate_eq hsource]

/-! ## Printed predicates -/

section Printing

variable {word : Predicate Float → List Char} {expr : Expr Float → List Char}

theorem isSourceText_enclosed (h : IsSourceText text) : IsSourceText (enclosed text) := by
  have hround : IsSourceText "(".toList ∧ IsSourceText ")".toList := by
    constructor <;> simp [IsSourceText, isSourceChar]
  exact IsSourceText.append_iff.mpr ⟨hround.1, IsSourceText.append_iff.mpr ⟨h, hround.2⟩⟩

theorem DerivesPredicate.round (h : DerivesPredicate limit .disjunction text p)
    (level : PredicateLevel) : DerivesPredicate limit level (Source.enclosed text) p := by
  have henclosed := DerivesPredicate.enclosed .nil h .nil
  rw [List.nil_append, List.append_nil] at henclosed
  exact henclosed.of_basic level

theorem isWordOf_self {small : String} (h : small.toList.map Char.toLower = small.toList) :
    IsWordOf small small.toList :=
  h

theorem WritesLeaves.isSourceText (h : WritesLeaves limit word expr p) :
    IsSourceText (printed word expr p) := by
  have hword : ∀ word ∈ [" or ", " and ", "not ", " "], IsSourceText word.toList := by
    simp [IsSourceText, isSourceChar]
  have hsign : ∀ op : Relation, IsSourceText op.sign.toList := by
    intro op
    cases op <;> simp [IsSourceText, isSourceChar, Relation.sign]
  induction p with
  | disj left right ihleft ihright =>
      simp only [printed, IsSourceText.append_iff]
      exact ⟨⟨isSourceText_enclosed (ihleft h.1), hword _ (by simp)⟩,
        isSourceText_enclosed (ihright h.2)⟩
  | conj left right ihleft ihright =>
      simp only [printed, IsSourceText.append_iff]
      exact ⟨⟨isSourceText_enclosed (ihleft h.1), hword _ (by simp)⟩,
        isSourceText_enclosed (ihright h.2)⟩
  | neg operand ih =>
      simp only [printed, IsSourceText.append_iff]
      exact ⟨hword _ (by simp), isSourceText_enclosed (ih h)⟩
  | compare op left right =>
      simp only [printed, IsSourceText.append_iff, IsSourceText.cons_iff]
      exact ⟨h.1.source, by decide, hsign op, by decide, h.2.source⟩
  | _ => exact h.2

/-- A printed predicate derives from the grammar. -/
theorem WritesLeaves.derives (h : WritesLeaves limit word expr p) :
    DerivesPredicate limit .disjunction (printed word expr p) p := by
  induction p with
  | disj left right ihleft ihright =>
      have hor : IsWordOf "or" "or".toList := isWordOf_self (by decide)
      have hjoined := DerivesPredicate.disj ((ihleft h.1).round .conjunction) .nil hor .nil
        ((ihright h.2).round .disjunction)
      rw [printed, List.append_assoc]
      exact hjoined
  | conj left right ihleft ihright =>
      have hand : IsWordOf "and" "and".toList := isWordOf_self (by decide)
      have hjoined := DerivesPredicate.conj ((ihleft h.1).round .basic) .nil hand .nil
        ((ihright h.2).round .conjunction)
      rw [printed, List.append_assoc]
      exact .ofConjunction hjoined
  | neg operand ih =>
      have hnot : IsWordOf "not" "not".toList := isWordOf_self (by decide)
      have hnegated := DerivesPredicate.negated hnot .nil ((ih h).round .basic)
      exact hnegated.of_basic .disjunction
  | compare op left right =>
      have hcompared : DerivesPredicate limit .basic
          (printed word expr (.compare op left right)) (.compare op left right) :=
        .compare h.1.derives h.1.avoids blanks_space blanks_space h.2.derives h.2.avoids
      exact hcompared.of_basic .disjunction
  | _ => exact (DerivesPredicate.atom h.1).of_basic .disjunction

end Printing

/-! ## The reader and the grammar -/

/-- Every text that derives from the grammar is read as the predicate that it derives, and
every predicate that is printed with parentheses around its operands is read back. -/
theorem conditions_read_as_derived :
    (∀ text p, IsCondition (some digitLimit) text p → readCondition {} text = .ok p) ∧
      ∀ word expr p, WritesLeaves (some digitLimit) word expr p →
        readCondition {} (printed word expr p) = .ok p := by
  refine ⟨fun _ _ h => h.readCondition_eq, fun word expr p h => ?_⟩
  have hcondition := IsCondition.intro .nil h.derives h.isSourceText .nil
  rw [List.nil_append, List.append_nil] at hcondition
  exact hcondition.readCondition_eq

/-- A negated comparison before a disjunction in parentheses. -/
def guarded : Predicate Float :=
  .conj (.neg (.compare .ge (.parameter "gap") .own)) (.disj .receivedAny (.neg .isLeader))

/-- The same predicate with no more parentheses than it needs. -/
def guardedText : List Char :=
  "not gap >= x and (received_any OR not(self is leader))".toList

theorem isPredicateAtom_receivedAny : IsPredicateAtom limit "received_any".toList .receivedAny :=
  .receivedAny (.plain (isWordOf_self (by decide)))

theorem isPredicateAtom_leader : IsPredicateAtom limit "self is leader".toList .isLeader := by
  have hself : IsWordOf "self" "self".toList := isWordOf_self (by decide)
  have his : IsWordOf "is" "is".toList := isWordOf_self (by decide)
  have hleader : IsWordOf "leader" "leader".toList := isWordOf_self (by decide)
  exact .isLeader hself blanks_space (by decide) his blanks_space (by decide) hleader

theorem derives_gap : Derives limit .sum "gap".toList (.parameter "gap") :=
  (Derives.atom (.parameter (by decide) (by decide) (by decide) (by decide))).toSum

theorem avoidsWords_gap : Expr.AvoidsWords (.parameter "gap") := by
  rw [Expr.AvoidsWords]
  decide

theorem derives_own : Derives limit .sum "x".toList .own :=
  (Derives.atom (.own (by decide))).toSum

theorem isCondition_guardedText : IsCondition limit guardedText guarded := by
  have hnot : IsWordOf "not" "not".toList := isWordOf_self (by decide)
  have hand : IsWordOf "and" "and".toList := isWordOf_self (by decide)
  have hor : IsWordOf "or" "OR".toList := by
    rw [IsWordOf]
    decide
  have hcompare : DerivesPredicate limit .basic
      ("gap".toList ++ ([' '] ++ (Relation.ge.sign.toList ++ ([' '] ++ "x".toList))))
      (.compare .ge (.parameter "gap") .own) :=
    .compare derives_gap avoidsWords_gap blanks_space blanks_space derives_own trivial
  have hleader : DerivesPredicate limit .disjunction "self is leader".toList .isLeader :=
    (DerivesPredicate.atom isPredicateAtom_leader).of_basic .disjunction
  have hdisj : DerivesPredicate limit .disjunction "received_any OR not(self is leader)".toList
      (.disj .receivedAny (.neg .isLeader)) :=
    .disj ((DerivesPredicate.atom isPredicateAtom_receivedAny).of_basic .conjunction) .nil hor .nil
      ((DerivesPredicate.negatedEnclosed hnot .nil hleader .nil).of_basic .disjunction)
  have hall : DerivesPredicate limit .disjunction guardedText guarded :=
    .ofConjunction (.conj (.negated hnot .nil hcompare) .nil hand .nil (hdisj.round .conjunction))
  have hsource : IsSourceText guardedText := by
    rw [IsSourceText]
    decide
  have hcondition := IsCondition.intro .nil hall hsource .nil
  rwa [List.nil_append, List.append_nil] at hcondition

/-- The words for the atoms that occur in it. -/
def leafWord : Predicate Float → List Char
  | .receivedAny => "received_any".toList
  | _ => "self is leader".toList

/-- The words for the expressions that are compared in it. -/
def leafExpr : Expr Float → List Char
  | .parameter name => name.toList
  | _ => "x".toList

theorem writesLeaves_guarded : WritesLeaves limit leafWord leafExpr guarded := by
  have hsource : ∀ word ∈ ["gap", "x", "received_any", "self is leader"],
      IsSourceText word.toList := by
    simp only [IsSourceText]
    decide
  exact ⟨⟨⟨derives_gap, avoidsWords_gap, hsource "gap" (by decide)⟩,
      ⟨derives_own, trivial, hsource "x" (by decide)⟩⟩,
    ⟨isPredicateAtom_receivedAny, hsource "received_any" (by decide)⟩,
    ⟨isPredicateAtom_leader, hsource "self is leader" (by decide)⟩⟩

/-- Both texts of the predicate are read as the predicate. -/
theorem guarded_read_as_derived :
    IsCondition (some digitLimit) guardedText guarded ∧
      readCondition {} guardedText = .ok guarded ∧
      WritesLeaves (some digitLimit) leafWord leafExpr guarded ∧
      readCondition {} (printed leafWord leafExpr guarded) = .ok guarded :=
  ⟨isCondition_guardedText, conditions_read_as_derived.1 _ _ isCondition_guardedText,
    writesLeaves_guarded, conditions_read_as_derived.2 _ _ _ writesLeaves_guarded⟩

example : printed leafWord leafExpr guarded =
    "(not (gap >= x)) and ((received_any) or (not (self is leader)))".toList :=
  rfl

/-! ## Counts that are too long -/

/-- A count of more digits than the limit is refused. -/
theorem readCondition_ne_ok_of_long_count {digits : List Char} (htext : IsSourceText text)
    (hcall : IsCall "received_at_least" text (front ++ digits ++ back)) (hfront : Blanks front)
    (hback : Blanks back) (hnumber : isNumber digits = true)
    (hlong : digitLimit < digits.length) : readCondition {} text ≠ .ok p := by
  have hatom : IsPredicateAtom none text (.receivedAtLeast (digitsValue digits : Nat)) :=
    .receivedAtLeast hcall hfront hback hnumber (by simp)
  obtain ⟨rest, hcompact, hargument⟩ :=
    exists_compact_number htext hcall hfront hback hnumber (by decide)
  have hcondition := readCondition_padded hatom.standing htext .nil .nil
  rw [List.nil_append, List.append_nil] at hcondition
  rw [hcondition, hatom.readPredicate_eq htext, readAtom_eq, hcompact,
    readCompact_receivedAtLeast hargument, Ne, bind_eq_ok]
  rintro ⟨count, hread, _⟩
  rw [mapError_eq_ok, readNumber, mapError_eq_ok, readInteger_eq_ok_iff,
    trimNumeral_eq (trimmed_of_isNumber hnumber)] at hread
  exact absurd hread.1 (Nat.not_le.mpr hlong)

/-- The condition that at least one message is received, with the padded count. -/
def paddedCondition : List Char :=
  "received_at_least".toList ++ ([] ++ '(' :: ([] ++ paddedOne ++ [] ++ [')']))

/-- Without a limit on its digits the count one could be padded with any number of zeros;
the reader refuses the padded count. -/
theorem readCondition_refuses_padded_count :
    IsCondition none paddedCondition (.receivedAtLeast 1) ∧
      ∀ p, readCondition {} paddedCondition ≠ .ok p := by
  have hcall : IsCall "received_at_least" paddedCondition ([] ++ paddedOne ++ []) :=
    .intro (isWordOf_self (by decide)) .nil
  have hsource : IsSourceText paddedCondition := by
    have hword : IsSourceText "received_at_least".toList := by
      rw [IsSourceText]
      decide
    have hcount : IsSourceText ([] ++ paddedOne ++ []) := by
      rw [List.nil_append, List.append_nil]
      exact isSourceText_paddedOne
    exact IsSourceText.append_iff.mpr ⟨hword, isSourceText_enclosed hcount⟩
  constructor
  · have hatom : IsPredicateAtom none paddedCondition
        (.receivedAtLeast (digitsValue paddedOne : Nat)) :=
      .receivedAtLeast hcall .nil .nil isNumber_paddedOne (by simp)
    rw [digitsValue_paddedOne] at hatom
    have hcondition :=
      IsCondition.intro .nil ((DerivesPredicate.atom hatom).of_basic .disjunction) hsource .nil
    rwa [List.nil_append, List.append_nil] at hcondition
  · intro p
    apply readCondition_ne_ok_of_long_count hsource hcall .nil .nil isNumber_paddedOne
    simp [paddedOne]

end LossyConsensus.Source
