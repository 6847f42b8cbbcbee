/-
# Derived texts in place

Every text that derives an expression is trimmed, has matched brackets and ends
where an operand is complete.  Where an operand is awaited, the scan for the
looser operators passes over every product, and both scans pass over every
factor.  This is why the last operator that the scan finds is the one at the
root of the derivation.
-/

import LossyConsensus.Proofs.Source.Token

namespace LossyConsensus.Source

open LossyConsensus.Decimal LossyConsensus.Protocol LossyConsensus.Text

variable {limit : Option Nat} {level : Level} {operators text before digits rest : List Char}
  {e : Expr Float} {c : Char}

/-! ## Numerals -/

/-- A number begins at the last of its digits from the back, unless it continues
a word. -/
theorem numberBegins_digits (hnil : digits ≠ []) (hdigits : Digits digits)
    (hrest : rest.head?.any (fun d => isAsciiAlphanumeric d || d == '_') = false) :
    numberBegins (digits ++ rest) = true := by
  induction digits with
  | nil => exact absurd rfl hnil
  | cons c digits ih =>
      rw [List.cons_append, numberBegins, hdigits c List.mem_cons_self, Bool.true_and]
      cases digits with
      | nil =>
          rw [List.nil_append, hrest]
          rfl
      | cons d digits =>
          rw [ih (List.cons_ne_nil d digits) fun c hc => hdigits c (List.mem_cons_of_mem _ hc),
            Bool.or_true]

theorem digits_reverse (h : Digits digits) : Digits digits.reverse :=
  fun c hc => h c (List.mem_reverse.mp hc)

/-- A mantissa and a mark make a sign that follows part of the numeral. -/
theorem endsInExponentMark_mantissa (h : IsMantissa text) (hc : c = 'e' ∨ c = 'E') :
    endsInExponentMark (c :: text.reverse) = true := by
  have hletter : (c == 'e' || c == 'E') = true := by
    rcases hc with rfl | rfl <;> rfl
  rw [endsInExponentMark, hletter, Bool.true_and, Bool.or_eq_true]
  cases h with
  | whole hnil hdigits =>
      left
      have hbegins : numberBegins (text.reverse ++ []) = true :=
        numberBegins_digits (by simpa using hnil) (digits_reverse hdigits) rfl
      rwa [List.append_nil] at hbegins
  | @pointed whole fraction hnil hwhole hfraction =>
      have hreverse : (whole ++ '.' :: fraction).reverse =
          fraction.reverse ++ '.' :: whole.reverse := by simp
      rw [hreverse]
      by_cases hempty : fraction = []
      · right
        subst hempty
        have hbegins : numberBegins (whole.reverse ++ []) = true :=
          numberBegins_digits (by simpa using hnil) (digits_reverse hwhole) rfl
        rwa [List.append_nil] at hbegins
      · left
        exact numberBegins_digits (by simpa using hempty) (digits_reverse hfraction) rfl

/-- The sign of an exponent joins nothing. -/
theorem isJoining_exponent (h : IsMantissa text) (hbefore : AwaitsOperand before)
    (hc : c = 'e' ∨ c = 'E') {sign : Char} (hsign : sign = '+' ∨ sign = '-') :
    isJoining sign (c :: (text.reverse ++ before)) = false := by
  have hmark := endsInExponentMark_append hbefore (c :: text.reverse)
  rw [endsInExponentMark_mantissa h hc, List.cons_append] at hmark
  have hblank : isBlank c = false := by
    rcases hc with rfl | rfl <;> rfl
  have hminus : (sign == '+' || sign == '-') = true := by
    rcases hsign with rfl | rfl <;> rfl
  simp only [isJoining, trimLeft_cons hblank, hmark, hminus]
  simp

section Scan

variable (hoperators : ∀ c ∈ operators, c ∈ ['+', '-', '*', '/'])
include hoperators

theorem skips_inert (h : Inert text) (before : List Char) : Skips operators text before :=
  h.balanced.skips (fun c hc hop => h.free c hc (hoperators c hop)) before

theorem skips_digits (h : Digits text) (before : List Char) : Skips operators text before := by
  by_cases hnil : text = []
  · subst hnil
    exact .nil
  · exact skips_inert hoperators (.of_number (digits_iff.mpr ⟨hnil, h⟩)) before

theorem skips_mantissa (h : IsMantissa text) (before : List Char) :
    Skips operators text before := by
  cases h with
  | whole _ hdigits => exact skips_digits hoperators hdigits before
  | pointed _ hwhole hfraction =>
      have hpoint : Inert ['.'] := .of_plain (by decide)
      exact (skips_digits hoperators hwhole _).append
        ((skips_inert hoperators hpoint _).append (skips_digits hoperators hfraction _))

theorem skips_exponent {mantissa : List Char} (h : IsExponent text) (hmantissa : IsMantissa mantissa)
    (hbefore : AwaitsOperand before) : Skips operators text (mantissa.reverse ++ before) := by
  cases h with
  | absent => exact .nil
  | @marked mark sign digits hmark hsign hnil hdigits =>
      have hplain : Inert [mark] := by
        rcases hmark with rfl | rfl
        · exact .of_plain (by decide)
        · exact .of_plain (by decide)
      have hskips : Skips operators sign (mark :: (mantissa.reverse ++ before)) := by
        rcases hsign with rfl | rfl | rfl
        · exact .nil
        · exact .char rfl rfl fun _ =>
            isJoining_exponent hmantissa hbefore hmark (.inl rfl)
        · exact .char rfl rfl fun _ =>
            isJoining_exponent hmantissa hbefore hmark (.inr rfl)
      exact (skips_inert hoperators hplain _).append
        (hskips.append (skips_digits hoperators hdigits _))

theorem skips_magnitude {mantissa exponent : List Char} (hmantissa : IsMantissa mantissa)
    (hexponent : IsExponent exponent) (hbefore : AwaitsOperand before) :
    Skips operators (mantissa ++ exponent) before :=
  (skips_mantissa hoperators hmantissa before).append
    (skips_exponent hoperators hexponent hmantissa hbefore)

omit hoperators in
/-- Where an operand is awaited a minus sign joins nothing. -/
theorem skips_minus (hbefore : AwaitsOperand before) : Skips operators ['-'] before :=
  .char rfl rfl fun _ => isJoining_of_awaits hbefore '-'

theorem skips_numeral (h : IsNumeral text) (hbefore : AwaitsOperand before) :
    Skips operators text before := by
  cases h with
  | unsigned hmantissa hexponent => exact skips_magnitude hoperators hmantissa hexponent hbefore
  | negative hmantissa hexponent =>
      exact (skips_minus hbefore).append
        (skips_magnitude hoperators hmantissa hexponent (.cons (by decide)))

end Scan

theorem balanced_numeral (h : IsNumeral text) : Balanced text := by
  apply Balanced.of_plain
  apply h.forall_mem fun c => isOpening c = false ∧ isClosing c = false
  · intro c hc
    exact plain_of_not_mem_marks (not_mem_marks_of_isDigit hc)
  · decide

theorem Complete.of_isNumeral (h : IsNumeral text) : Complete text := by
  rcases h.back with ⟨init, c, rfl, hc | rfl⟩
  · exact .of_digit hc
  · exact .of_last (by decide) (by decide) (by decide)

/-! ## Derived texts -/

/-- The kinds of operators that the scan does not find inside a text of a
level. -/
def Level.passed : Level → List (List Char)
  | .sum => []
  | .product => [['+', '-']]
  | .factor => [['+', '-'], ['*', '/']]

/-- The place of a text of a level in a larger one. -/
structure Placed (level : Level) (text : List Char) : Prop where
  front : ∃ c rest, text = c :: rest ∧ isBlank c = false
  balanced : Balanced text
  complete : Complete text
  skips : ∀ operators ∈ level.passed, ∀ before, AwaitsOperand before →
    Skips operators text before

namespace Placed

theorem trimmed (h : Placed level text) : Trimmed text := by
  constructor
  · exact h.front
  · rcases h.complete.back with ⟨init, c, htext, hblank, _⟩
    exact ⟨init, c, htext, hblank⟩

theorem ne_nil (h : Placed level text) : text ≠ [] := by
  rcases h.front with ⟨c, rest, rfl, _⟩
  exact List.cons_ne_nil c rest

end Placed

theorem passed_subset (level : Level) :
    ∀ operators ∈ level.passed, ∀ c ∈ operators, c ∈ ['+', '-', '*', '/'] := by
  cases level <;> decide

theorem sign_mem (op : Operator) : op.sign ∈ "+-*/(,".toList := by
  cases op <;> decide

theorem balanced_sign (op : Operator) : Balanced [op.sign] := by
  cases op <;> exact .plain rfl rfl

/-- Where the second operand of an operator stands, an operand is awaited. -/
theorem awaits_after_sign {gap : List Char} (hgap : Blanks gap) (op : Operator)
    (before : List Char) : AwaitsOperand (gap.reverse ++ op.sign :: before) :=
  .append_gap hgap.reverse (.cons (sign_mem op))

section Join

variable {left front back right : List Char} {outer first second : Level} {op : Operator}

/-- Two operands with an operator between them. -/
theorem Placed.join (hleft : Placed first left) (hfront : Blanks front) (op : Operator)
    (hback : Blanks back) (hright : Placed second right)
    (hskips : ∀ operators ∈ outer.passed, ∀ before, AwaitsOperand before →
      Skips operators (left ++ front ++ op.sign :: (back ++ right)) before) :
    Placed outer (left ++ front ++ op.sign :: (back ++ right)) where
  front := by
    rcases hleft.front with ⟨c, rest, rfl, hc⟩
    exact ⟨c, rest ++ front ++ op.sign :: (back ++ right), by simp, hc⟩
  balanced := by
    have hpair := ((hleft.balanced.append (.of_blanks hfront)).append (balanced_sign op)).append
      ((Balanced.of_blanks hback).append hright.balanced)
    simpa using hpair
  complete := by
    have hawaits : AwaitsOperand (left ++ front ++ op.sign :: back).reverse := by
      have hsign := awaits_after_sign hback op (left ++ front).reverse
      simpa using hsign
    have hcomplete := hright.complete.append_left hawaits
    simpa using hcomplete
  skips := hskips

/-- The scan for the looser operators passes over a product. -/
theorem skips_product (hop : op = .mul ∨ op = .div) (hleft : Placed .product left)
    (hfront : Blanks front) (hback : Blanks back) (hright : Placed .factor right)
    (hbefore : AwaitsOperand before) :
    Skips ['+', '-'] (left ++ front ++ op.sign :: (back ++ right)) before := by
  have hgap : ∀ {gap : List Char}, Blanks gap → ∀ before, Skips ['+', '-'] gap before :=
    fun hgap before => skips_inert (by decide) (.of_blanks hgap) before
  have hsign : ∀ before, Skips ['+', '-'] [op.sign] before := by
    intro before
    rcases hop with rfl | rfl
    · exact .char rfl rfl fun hmem => absurd hmem (by decide)
    · exact .char rfl rfl fun hmem => absurd hmem (by decide)
  have hoperand : Skips ['+', '-'] right
      (back.reverse ++ ([op.sign].reverse ++ ((left ++ front).reverse ++ before))) :=
    hright.skips _ (by decide) _ (awaits_after_sign hback op _)
  exact ((hleft.skips _ (by decide) _ hbefore).append (hgap hfront _)).append
    ((hsign _).append ((hgap hback _).append hoperand))

end Join

/-- Every derived text has its place. -/
theorem Derives.placed (h : Derives limit level text e) : Placed level text := by
  induction h with
  | numeral hform _ =>
      exact ⟨hform.trimmed.front, balanced_numeral hform, .of_isNumeral hform,
        fun operators hmem _ hbefore => skips_numeral (passed_subset _ operators hmem) hform hbefore⟩
  | @negated gap operand _ hgap _ _ ih =>
      constructor
      · exact ⟨'-', _, rfl, by decide⟩
      · have hminus : Balanced ['-'] := .plain rfl rfl
        exact hminus.append ((Balanced.of_blanks hgap).append ih.balanced)
      · have hawaits : AwaitsOperand ('-' :: gap).reverse := by
          rw [List.reverse_cons]
          exact .append_gap hgap.reverse (.cons (by decide))
        exact ih.complete.append_left hawaits
      · intro operators hmem before hbefore
        have hsubset := passed_subset _ operators hmem
        have hoperand : Skips operators operand (gap.reverse ++ (['-'].reverse ++ before)) :=
          ih.skips operators hmem _ (.append_gap hgap.reverse (.cons (by decide)))
        exact (skips_minus hbefore).append
          ((skips_inert hsubset (.of_blanks hgap) _).append hoperand)
  | atom hatom =>
      exact ⟨hatom.trimmed.front, hatom.inert.balanced, hatom.complete,
        fun operators hmem before _ => skips_inert (passed_subset _ operators hmem) hatom.inert before⟩
  | @enclosed front body back _ hfront _ hback ih =>
      have hbody := ((Balanced.of_blanks hfront).append ih.balanced).append (.of_blanks hback)
      exact ⟨⟨'(', _, rfl, by decide⟩, .round hbody, .of_round ('(' :: (front ++ body ++ back)),
        fun _ _ before _ => hbody.skips_round before⟩
  | ofFactor _ ih =>
      exact ⟨ih.front, ih.balanced, ih.complete,
        fun operators hmem => ih.skips operators (List.mem_append_left [['*', '/']] hmem)⟩
  | ofProduct _ ih =>
      exact ⟨ih.front, ih.balanced, ih.complete, fun _ hmem => nomatch hmem⟩
  | product hop _ hfront hback _ ihleft ihright =>
      apply ihleft.join hfront _ hback ihright
      intro operators hmem before hbefore
      rw [List.mem_singleton.mp hmem]
      exact skips_product hop ihleft hfront hback ihright hbefore
  | sum _ _ hfront hback _ ihleft ihright =>
      exact ihleft.join hfront _ hback ihright fun _ hmem => nomatch hmem

end LossyConsensus.Source
