/-
# Matched brackets

A text whose brackets match is passed over by the scan for operators: inside
other brackets always, outside them when it contains no operator of the kind
sought.  Parentheses around it are taken away, and parentheses that belong to
two different parts of a text are not.
-/

import LossyConsensus.Proofs.Text.Nesting

namespace LossyConsensus.Text

/-- A text in which every bracket has its partner. -/
inductive Balanced : List Char → Prop
  | nil : Balanced []
  | plain {c : Char} (hopening : isOpening c = false) (hclosing : isClosing c = false) :
      Balanced [c]
  | append {first second : List Char} (hfirst : Balanced first) (hsecond : Balanced second) :
      Balanced (first ++ second)
  | round {text : List Char} (htext : Balanced text) : Balanced ('(' :: (text ++ [')']))
  | square {text : List Char} (htext : Balanced text) : Balanced ('[' :: (text ++ [']']))

namespace Balanced

variable {operators right before text rest : List Char} {c : Char}

/-- A text without brackets is balanced. -/
theorem of_plain (h : ∀ c ∈ text, isOpening c = false ∧ isClosing c = false) :
    Balanced text := by
  induction text with
  | nil => exact nil
  | cons c text ih =>
      have hc := h c List.mem_cons_self
      exact append (plain hc.1 hc.2) (ih fun d hd => h d (List.mem_cons_of_mem c hd))

theorem of_blanks (h : Blanks text) : Balanced text := by
  apply of_plain
  intro c hc
  have hplain := forall_isBlank (fun c => !isOpening c && !isClosing c) (by decide) (h c hc)
  simpa using hplain

/-! ## Scanning -/

/-- The scan passes over a pair of brackets when it passes over what they hold,
one level deeper. -/
theorem cutOperatorFrom_pair {opening closing : Char} {depth : Int}
    (hopening : isOpening opening = true) (hother : isClosing opening = false)
    (hclosing : isClosing closing = true)
    (hinner : ∀ right before, cutOperatorFrom operators (depth + 1) right (text.reverse ++ before) =
      cutOperatorFrom operators (depth + 1) (text ++ right) before) (right before : List Char) :
    cutOperatorFrom operators depth right ((opening :: (text ++ [closing])).reverse ++ before) =
      cutOperatorFrom operators depth ((opening :: (text ++ [closing])) ++ right) before := by
  have hreverse : (opening :: (text ++ [closing])).reverse ++ before =
      closing :: (text.reverse ++ opening :: before) := by simp
  rw [hreverse, cutOperatorFrom_cons, if_neg (by simp [stopsAt, hclosing]), depthBefore,
    if_pos hclosing, hinner, cutOperatorFrom_cons, if_neg (by simp [stopsAt, hopening]),
    depthBefore, if_neg (by simp [hother]), if_pos hopening, Int.add_sub_cancel]
  simp

/-- The scan passes over a balanced text, when the text lies inside brackets or
contains no operator that is sought. -/
theorem cutOperatorFrom_eq (htext : Balanced text) {depth : Int} (hdepth : 0 ≤ depth)
    (hoperators : depth = 0 → ∀ c ∈ text, c ∉ operators) (right before : List Char) :
    cutOperatorFrom operators depth right (text.reverse ++ before) =
      cutOperatorFrom operators depth (text ++ right) before := by
  induction htext generalizing depth right before with
  | nil => rfl
  | @plain c hopening hclosing =>
      have hgo : stopsAt operators depth c before = false := by
        by_cases hzero : depth = 0
        · simp [stopsAt, hoperators hzero c List.mem_cons_self]
        · simp [stopsAt, hzero]
      change cutOperatorFrom operators depth right (c :: before) = _
      rw [cutOperatorFrom_cons, hgo, if_neg Bool.false_ne_true, depthBefore, hclosing, hopening]
      rfl
  | @append first second _ _ ihfirst ihsecond =>
      have hfirst := ihfirst hdepth fun hzero c hc =>
        hoperators hzero c (List.mem_append_left _ hc)
      have hsecond := ihsecond hdepth fun hzero c hc =>
        hoperators hzero c (List.mem_append_right _ hc)
      rw [List.reverse_append, List.append_assoc, hsecond, hfirst, List.append_assoc]
  | round _ ih =>
      exact cutOperatorFrom_pair (by decide) (by decide) (by decide)
        (ih (by omega) (by omega)) right before
  | square _ ih =>
      exact cutOperatorFrom_pair (by decide) (by decide) (by decide)
        (ih (by omega) (by omega)) right before

theorem skips (htext : Balanced text) (h : ∀ c ∈ text, c ∉ operators) (before : List Char) :
    Skips operators text before :=
  fun right => htext.cutOperatorFrom_eq (Int.le_refl 0) (fun _ => h) right before

/-- The scan passes over parentheses whatever they hold. -/
theorem skips_round (htext : Balanced text) (before : List Char) :
    Skips operators ('(' :: (text ++ [')'])) before :=
  fun right => cutOperatorFrom_pair (by decide) (by decide) (by decide)
    (htext.cutOperatorFrom_eq (by decide) (by omega)) right before

/-! ## Enclosing parentheses -/

/-- The depth of parentheses after a character. -/
def depthAfter (depth : Nat) (c : Char) : Nat :=
  if c == '(' then depth + 1 else if c == ')' then depth - 1 else depth

theorem staysOpen_cons (h : rest ≠ []) (depth : Nat) (c : Char) :
    staysOpen depth (c :: rest) =
      (depthAfter depth c != 0 && staysOpen (depthAfter depth c) rest) := by
  cases rest with
  | nil => exact absurd rfl h
  | cons d rest => rfl

theorem depthAfter_of_plain {c : Char} (hopening : isOpening c = false)
    (hclosing : isClosing c = false) (depth : Nat) : depthAfter depth c = depth := by
  simp only [isOpening, isClosing, Bool.or_eq_false_iff] at hopening hclosing
  simp [depthAfter, hopening.1, hclosing.1]

/-- Inside parentheses a balanced text leaves the first one open. -/
theorem staysOpen_append (htext : Balanced text) (hrest : rest ≠ []) (depth : Nat) :
    staysOpen (depth + 1) (text ++ rest) = staysOpen (depth + 1) rest := by
  induction htext generalizing depth rest with
  | nil => rfl
  | plain hopening hclosing =>
      rw [List.singleton_append, staysOpen_cons hrest, depthAfter_of_plain hopening hclosing]
      simp
  | append _ _ ihfirst ihsecond =>
      rw [List.append_assoc, ihfirst (List.append_ne_nil_of_right_ne_nil _ hrest), ihsecond hrest]
  | round _ ih =>
      have hclosed := ih (List.cons_ne_nil ')' rest) (depth + 1)
      rw [List.cons_append, List.append_assoc, staysOpen_cons (by simp)]
      change (_ && staysOpen (depth + 1 + 1) (_ ++ ')' :: rest)) = _
      rw [hclosed, staysOpen_cons hrest]
      simp [depthAfter]
  | square _ ih =>
      have hclosed := ih (List.cons_ne_nil ']' rest) depth
      rw [List.cons_append, List.append_assoc, staysOpen_cons (by simp)]
      change (_ && staysOpen (depth + 1) (_ ++ ']' :: rest)) = _
      rw [hclosed, staysOpen_cons hrest]
      simp [depthAfter]

/-- A balanced text that begins a longer one leaves no parenthesis open. -/
theorem staysOpen_eq_false (htext : Balanced text) (hnil : text ≠ []) (hrest : rest ≠ []) :
    staysOpen 0 (text ++ rest) = false := by
  induction htext generalizing rest with
  | nil => exact absurd rfl hnil
  | plain hopening hclosing =>
      rw [List.singleton_append, staysOpen_cons hrest, depthAfter_of_plain hopening hclosing]
      rfl
  | @append first second _ _ ihfirst ihsecond =>
      rw [List.append_assoc]
      by_cases hfirst : first = []
      · subst hfirst
        exact ihsecond hnil hrest
      · exact ihfirst hfirst (List.append_ne_nil_of_right_ne_nil _ hrest)
  | round htext _ =>
      rw [List.cons_append, List.append_assoc, staysOpen_cons (by simp)]
      change (_ && staysOpen (0 + 1) (_ ++ ')' :: rest)) = _
      rw [htext.staysOpen_append (List.cons_ne_nil _ _), staysOpen_cons hrest]
      rfl
  | square _ _ =>
      rw [List.cons_append, List.append_assoc, staysOpen_cons (by simp)]
      rfl

/-- Parentheses around a balanced text enclose it. -/
theorem isEnclosed_round (htext : Balanced text) :
    isEnclosed ('(' :: (text ++ [')'])) = true := by
  have hopen : staysOpen 0 ('(' :: (text ++ [')'])) = true := by
    rw [staysOpen_cons (by simp)]
    change (_ && staysOpen (0 + 1) (text ++ [')'])) = true
    rw [htext.staysOpen_append (List.cons_ne_nil _ _)]
    rfl
  have hlast : ('(' :: (text ++ [')'])).getLast? = some ')' := by
    rw [← List.cons_append, List.getLast?_concat]
  simp [isEnclosed, hopen, hlast]

/-- No parentheses enclose a text that begins with a shorter balanced one. -/
theorem isEnclosed_append (htext : Balanced text) (hnil : text ≠ []) (hrest : rest ≠ []) :
    isEnclosed (text ++ rest) = false := by
  rw [isEnclosed, htext.staysOpen_eq_false hnil hrest, Bool.and_false]

end Balanced

/-- What parentheses enclose. -/
theorem exists_of_isEnclosed {text : List Char} (h : isEnclosed text = true) :
    ∃ body, text = '(' :: (body ++ [')']) ∧ inner text = trim body := by
  simp only [isEnclosed, Bool.and_eq_true, beq_iff_eq] at h
  rcases h with ⟨⟨hfirst, hlast⟩, _⟩
  cases text with
  | nil => cases hfirst
  | cons c rest =>
      cases hfirst
      rcases List.eq_nil_or_concat rest with rfl | ⟨body, d, rfl⟩
      · cases hlast
      · rw [List.concat_eq_append, ← List.cons_append, List.getLast?_concat] at hlast
        cases hlast
        refine ⟨body, by rw [List.concat_eq_append], ?_⟩
        rw [inner, List.concat_eq_append, List.drop_one, List.tail_cons, List.dropLast_concat]

/-! ## Dividing at an operator -/

section Divide

variable {operators others text left right : List Char} {c : Char}

/-- A text that is divided is the two parts with the operator between them.  The
second part has no further operator of the kind sought, and what is not found in
the whole text is found in neither part. -/
theorem cutOperator?_eq_some (hoperators : ∀ c ∈ operators, c ∈ "+-*/(,".toList)
    (h : cutOperator? operators text = some (left, c, right)) :
    text = left ++ c :: right ∧ c ∈ operators ∧ cutOperator? operators right = none ∧
      ∀ others, c ∉ others → cutOperator? others text = none →
        cutOperator? others left = none ∧ cutOperator? others right = none := by
  rcases exists_of_cutOperatorFrom hoperators h with ⟨y, hbefore, hright, hmem, hnone, hleft⟩
  rw [List.append_nil] at hright
  subst hright
  have htext := congrArg List.reverse hbefore
  rw [List.reverse_reverse, List.reverse_append, List.reverse_cons, List.reverse_reverse,
    List.append_assoc, List.singleton_append] at htext
  refine ⟨htext, hmem, ?_, ?_⟩
  · rw [cutOperator?, List.reverse_reverse]
    exact hnone
  · intro others hother hnothing
    constructor
    · exact hleft others [] hother hnothing
    · rw [cutOperator?, List.reverse_reverse]
      rw [cutOperator?, hbefore] at hnothing
      exact cutOperatorFrom_eq_none_of_append (.cons (hoperators c hmem)) hnothing

/-- What is not found in a text is not found behind a sign in front of it. -/
theorem cutOperator?_eq_none_of_cons (hc : c ∈ "+-*/(,".toList)
    (h : cutOperator? operators (c :: text) = none) : cutOperator? operators text = none := by
  rw [cutOperator?, List.reverse_cons] at h
  exact cutOperatorFrom_eq_none_of_append (.cons hc) h

/-- Blanks around a text do not matter for what is not found in it. -/
theorem cutOperator?_trim (hoperators : ∀ c ∈ operators, c ∈ "+-*/(,".toList)
    (h : cutOperator? operators text = none) : cutOperator? operators (trim text) = none := by
  rcases exists_trim text with ⟨front, back, hfront, hback, hparts⟩
  have hskips : Skips operators back ((front ++ trim text).reverse ++ []) := by
    apply (Balanced.of_blanks hback).skips
    intro c hc hoperator
    have hblank := hback c hc
    rw [isBlank_eq_false_of_mem (hoperators c hoperator)] at hblank
    cases hblank
  have hawaits : AwaitsOperand front.reverse := by
    have hgap := AwaitsOperand.append_gap hfront.reverse .nil
    rwa [List.append_nil] at hgap
  have hscan := hskips []
  rw [List.append_nil, ← List.reverse_append, ← hparts] at hscan
  rw [cutOperator?, hscan, List.reverse_append] at h
  exact cutOperatorFrom_eq_none_of_append hawaits h

end Divide

end LossyConsensus.Text
