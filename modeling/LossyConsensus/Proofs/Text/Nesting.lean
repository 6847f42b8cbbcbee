/-
# Joining operators

A scan for the last operator goes through a text from its back and judges every
operator by the characters before it.  So a part of a text is scanned the same
alone and in place, provided that it stands where an operand is awaited: what is
before it then ends in a character that no word and no number contains.
-/

import LossyConsensus.Proofs.Text.Blank
import LossyConsensus.Text.Nesting

namespace LossyConsensus.Text

/-- A text, given in reverse, after which an operand has to follow. -/
def AwaitsOperand (reversed : List Char) : Prop :=
  ∀ c before, trimLeft reversed = c :: before → c ∈ "+-*/(,".toList

/-- Characters that are part of no word and of no number. -/
def isBoundary (c : Char) : Bool :=
  !isDigit c && !isAsciiAlphanumeric c && c != '_' && c != '.'

/-! ## Where operands stand -/

theorem isBlank_eq_false_of_mem {c : Char} (h : c ∈ "+-*/(,".toList) : isBlank c = false := by
  revert c
  decide

theorem isBoundary_of_mem {c : Char} (h : c ∈ "+-*/(,".toList) : isBoundary c = true := by
  revert c
  decide

theorem isBoundary_of_isBlank {c : Char} (h : isBlank c = true) : isBoundary c = true :=
  forall_isBlank isBoundary (by decide) h

namespace AwaitsOperand

variable {gap before : List Char} {c : Char}

theorem nil : AwaitsOperand [] := by
  intro c before h
  cases h

theorem cons (h : c ∈ "+-*/(,".toList) : AwaitsOperand (c :: before) := by
  intro d rest htrim
  rw [trimLeft_cons (isBlank_eq_false_of_mem h)] at htrim
  cases htrim
  exact h

theorem append_gap (hgap : Blanks gap) (h : AwaitsOperand before) : AwaitsOperand (gap ++ before) := by
  intro c rest htrim
  rw [trimLeft_append hgap] at htrim
  exact h c rest htrim

theorem isBoundary_head (h : AwaitsOperand (c :: before)) : isBoundary c = true := by
  cases hblank : isBlank c with
  | true => exact isBoundary_of_isBlank hblank
  | false => exact isBoundary_of_mem (h c before (trimLeft_cons hblank))

end AwaitsOperand

/-! ## The text before an operator -/

section Before

variable {z : List Char}

theorem numberBegins_append (hz : AwaitsOperand z) (x : List Char) :
    numberBegins (x ++ z) = numberBegins x := by
  induction x with
  | nil =>
      cases z with
      | nil => rfl
      | cons c z =>
          have hc := hz.isBoundary_head
          simp only [isBoundary, Bool.and_eq_true, Bool.not_eq_true'] at hc
          simp [numberBegins, hc.1.1.1]
  | cons c x ih =>
      rw [List.cons_append, numberBegins, numberBegins, ih]
      cases x with
      | cons d x => rfl
      | nil =>
          cases z with
          | nil => rfl
          | cons d z =>
              have hd := hz.isBoundary_head
              simp only [isBoundary, Bool.and_eq_true, Bool.not_eq_true', bne_iff_ne] at hd
              simp [hd.1.1.2, hd.1.2]

/-- The digits at the front of a text end before a boundary. -/
theorem dropWhile_isDigit_append (hz : AwaitsOperand z) (x : List Char) :
    (x ++ z).dropWhile isDigit = x.dropWhile isDigit ++ z := by
  induction x with
  | nil =>
      cases z with
      | nil => rfl
      | cons c z =>
          have hc := hz.isBoundary_head
          simp only [isBoundary, Bool.and_eq_true, Bool.not_eq_true'] at hc
          simp [hc.1.1.1]
  | cons c x ih =>
      by_cases hc : isDigit c = true
      · rw [List.cons_append, List.dropWhile_cons_of_pos hc, List.dropWhile_cons_of_pos hc, ih]
      · rw [List.cons_append, List.dropWhile_cons_of_neg hc, List.dropWhile_cons_of_neg hc]
        rfl

theorem endsInExponentMark_append (hz : AwaitsOperand z) (x : List Char) :
    endsInExponentMark (x ++ z) = endsInExponentMark x := by
  cases x with
  | nil =>
      cases z with
      | nil => rfl
      | cons c z =>
          have hc := hz.isBoundary_head
          have hmark : (c == 'e' || c == 'E') = false := by
            rw [Bool.or_eq_false_iff, beq_eq_false_iff_ne, beq_eq_false_iff_ne]
            constructor <;> rintro rfl <;> exact absurd hc (by decide)
          simp [endsInExponentMark, hmark]
  | cons mark x =>
      simp only [List.cons_append, endsInExponentMark, numberBegins_append hz,
        dropWhile_isDigit_append hz]
      cases x.dropWhile isDigit with
      | cons c whole =>
          by_cases hc : c = '.'
          · subst hc
            simp [numberBegins_append hz]
          · simp [hc]
      | nil =>
          cases z with
          | nil => rfl
          | cons c z =>
              have hc := hz.isBoundary_head
              have hpoint : c ≠ '.' := by
                rintro rfl
                exact absurd hc (by decide)
              simp [hpoint]

theorem isJoining_of_awaits (hz : AwaitsOperand z) (operator : Char) :
    isJoining operator z = false := by
  cases htrim : trimLeft z with
  | nil => simp only [isJoining, htrim]
  | cons c before =>
      have hc : "+-*/(,".toList.contains c = true := List.contains_iff_mem.mpr (hz c before htrim)
      simp only [isJoining, htrim, hc, Bool.not_true, Bool.false_and]

/-- Whether an operator joins depends only on what stands after the last place
that awaits an operand. -/
theorem isJoining_append (hz : AwaitsOperand z) (operator : Char) (x : List Char) :
    isJoining operator (x ++ z) = isJoining operator x := by
  rcases exists_trimLeft x with ⟨gap, hgap, hx⟩
  have htrim : trimLeft (x ++ z) = trimLeft (trimLeft x ++ z) :=
    calc trimLeft (x ++ z) = trimLeft (gap ++ (trimLeft x ++ z)) := by
          rw [← List.append_assoc, ← hx]
      _ = trimLeft (trimLeft x ++ z) := trimLeft_append hgap
  cases hleft : trimLeft x with
  | nil =>
      have hawaits : isJoining operator (x ++ z) = isJoining operator z := by
        simp only [isJoining, htrim, hleft, List.nil_append]
      rw [hawaits, isJoining_of_awaits hz, isJoining, hleft]
  | cons c rest =>
      rw [hleft, List.cons_append, trimLeft_cons (front_of_trimLeft hleft)] at htrim
      have hmark := endsInExponentMark_append hz (c :: rest)
      rw [List.cons_append] at hmark
      simp only [isJoining, htrim, hleft, hmark]

end Before

/-! ## The scan -/

/-- The depth of brackets before a character, from the depth after it. -/
def depthBefore (depth : Int) (c : Char) : Int :=
  if isClosing c then depth + 1 else if isOpening c then depth - 1 else depth

/-- Whether a scan that has reached a character at some depth stops at it. -/
def stopsAt (operators : List Char) (depth : Int) (c : Char) (before : List Char) : Bool :=
  !isClosing c && !isOpening c && (depth == 0 && operators.contains c && isJoining c before)

variable {operators others right right' before left following y z : List Char} {c : Char}
  {depth : Int}

theorem cutOperatorFrom_cons (operators right before : List Char) (c : Char) (depth : Int) :
    cutOperatorFrom operators depth right (c :: before) =
      if stopsAt operators depth c before then some (before.reverse, c, right)
      else cutOperatorFrom operators (depthBefore depth c) (c :: right) before := by
  simp only [cutOperatorFrom, stopsAt, depthBefore]
  by_cases hclosing : isClosing c = true
  · simp [hclosing]
  · by_cases hopening : isOpening c = true
    · simp [hclosing, hopening]
    · simp [hclosing, hopening]

/-- A scan that stops nowhere stops nowhere in the later part of the text,
wherever an operand may begin there. -/
theorem cutOperatorFrom_eq_none_of_append (hz : AwaitsOperand z)
    (h : cutOperatorFrom operators depth right (y ++ z) = none) :
    cutOperatorFrom operators depth right' y = none := by
  induction y generalizing depth right right' with
  | nil => rfl
  | cons c y ih =>
      have hstop : stopsAt operators depth c (y ++ z) = stopsAt operators depth c y := by
        simp only [stopsAt, isJoining_append hz]
      rw [List.cons_append, cutOperatorFrom_cons, hstop] at h
      rw [cutOperatorFrom_cons]
      split at h
      · cases h
      · next hgo =>
        rw [if_neg hgo]
        exact ih h

theorem cutOperatorFrom_eq_none_right (h : cutOperatorFrom operators depth right before = none) :
    cutOperatorFrom operators depth right' before = none := by
  have happend : cutOperatorFrom operators depth right (before ++ []) = none := by
    rwa [List.append_nil]
  exact cutOperatorFrom_eq_none_of_append AwaitsOperand.nil happend

/-- Where a scan stops: at an operator that joins, after a part of the text in
which it alone would stop nowhere.  A scan for other operators that stops
nowhere in the whole text stops nowhere before that place. -/
theorem exists_of_cutOperatorFrom (hoperators : ∀ c ∈ operators, c ∈ "+-*/(,".toList)
    (h : cutOperatorFrom operators depth right before = some (left, c, following)) :
    ∃ y, before = y ++ c :: left.reverse ∧ following = y.reverse ++ right ∧ c ∈ operators ∧
      cutOperatorFrom operators depth right y = none ∧
      ∀ others right', c ∉ others → cutOperatorFrom others depth right' before = none →
        cutOperatorFrom others 0 right' left.reverse = none := by
  induction before generalizing depth right with
  | nil => cases h
  | cons d before ih =>
      rw [cutOperatorFrom_cons] at h
      split at h
      · next hstop =>
        cases h
        simp only [stopsAt, Bool.and_eq_true, Bool.not_eq_true', beq_iff_eq,
          List.contains_iff_mem] at hstop
        rcases hstop with ⟨⟨hclosing, hopening⟩, ⟨rfl, hmem⟩, hjoining⟩
        refine ⟨[], by simp, rfl, hmem, rfl, ?_⟩
        intro others right' hother hnone
        have hgo : stopsAt others 0 c before = false := by simp [stopsAt, hother]
        rw [cutOperatorFrom_cons, hgo, if_neg Bool.false_ne_true, depthBefore, hclosing,
          hopening] at hnone
        rw [List.reverse_reverse]
        exact cutOperatorFrom_eq_none_right hnone
      · next hstop =>
        rcases ih h with ⟨y, rfl, rfl, hmem, hy, hleft⟩
        have hsame : stopsAt operators depth d (y ++ c :: left.reverse) =
            stopsAt operators depth d y := by
          simp only [stopsAt, isJoining_append (AwaitsOperand.cons (hoperators c hmem))]
        refine ⟨d :: y, rfl, by simp, hmem, ?_, ?_⟩
        · rw [cutOperatorFrom_cons, if_neg (hsame ▸ hstop)]
          exact hy
        · intro others right' hother hnone
          rw [cutOperatorFrom_cons] at hnone
          split at hnone
          · cases hnone
          · exact cutOperatorFrom_eq_none_right (hleft others _ hother hnone)

/-- A scan passes over a text that stands after `before`. -/
def Skips (operators text before : List Char) : Prop :=
  ∀ right, cutOperatorFrom operators 0 right (text.reverse ++ before) =
    cutOperatorFrom operators 0 (text ++ right) before

namespace Skips

variable {text first second : List Char}

theorem nil : Skips operators [] before := by
  intro right
  rfl

theorem append (hfirst : Skips operators first before)
    (hsecond : Skips operators second (first.reverse ++ before)) :
    Skips operators (first ++ second) before := by
  intro right
  rw [List.reverse_append, List.append_assoc, hsecond right, hfirst (second ++ right),
    List.append_assoc]

/-- A scan passes over a character that is no bracket and does not join. -/
theorem char (hclosing : isClosing c = false) (hopening : isOpening c = false)
    (h : c ∈ operators → isJoining c before = false) : Skips operators [c] before := by
  intro right
  have hgo : stopsAt operators 0 c before = false := by
    by_cases hmem : c ∈ operators
    · simp [stopsAt, h hmem]
    · simp [stopsAt, hmem]
  change cutOperatorFrom operators 0 right (c :: before) = _
  rw [cutOperatorFrom_cons, hgo, if_neg Bool.false_ne_true, depthBefore, hclosing, hopening]
  rfl

/-- Nothing is found in a text that is passed over. -/
theorem eq_none (h : Skips operators text []) : cutOperator? operators text = none := by
  have hnone := h []
  rwa [List.append_nil] at hnone

end Skips

end LossyConsensus.Text
