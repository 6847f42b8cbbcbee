/-
# The reader of expressions and the grammar

The reader has no tokens: it looks for the last operator outside brackets, takes
away parentheses, and reads what remains as an operand.  What it accepts derives
from the grammar, by induction along its recursion, and every derivation is read
as the expression that it denotes, by induction on the derivation.

The grammar bounds the digits of a process id by the limit of the reader.  It
is the only bound: a longer id is refused, whatever number it writes.
-/

import LossyConsensus.Proofs.Source.Operand
import LossyConsensus.Proofs.Source.Placement

namespace LossyConsensus.Source

open LossyConsensus.Decimal LossyConsensus.Protocol LossyConsensus.Text

variable {v : Vocabulary} {level : Level} {text source left right front back body : List Char}
  {c : Char} {e : Expr Float}

/-! ## The branches of the reader -/

/-- How the reader goes on with a trimmed text that is not empty. -/
def readTrimmed (v : Vocabulary) (text : List Char) : Except RuleError (Expr Float) :=
  match readLiteral? text with
  | some numeral => .ok (.literal numeral.value)
  | none =>
      if stripEnclosing text ≠ text then readExpr v (stripEnclosing text)
      else match lastOperator? text with
        | some (left, c, right) =>
            if (trim left).isEmpty || (trim right).isEmpty then
              .error (.refused (.missingOperand c (String.ofList text)))
            else do
              let leftExpr ← readExpr v left
              let rightExpr ← readExpr v right
              return .binary (operator c) leftExpr rightExpr
        | none =>
            if text.head? = some '-' then do
              let operand ← readExpr v (text.drop 1)
              return .binary .sub (.literal 0.0) operand
            else readOperand v text

theorem readExpr_eq (v : Vocabulary) (source : List Char) :
    readExpr v source =
      if (trim source).isEmpty then .error (.refused .emptyExpr) else readTrimmed v (trim source) := by
  rw [readExpr]
  by_cases hempty : (trim source).isEmpty = true
  · simp only [hempty, if_true]
  · simp only [hempty, Bool.false_eq_true, if_false, readTrimmed]
    cases readLiteral? (trim source) with
    | some numeral => rfl
    | none =>
        by_cases hstrip : stripEnclosing (trim source) ≠ trim source
        · simp only [dif_pos hstrip, if_pos hstrip]
        · simp only [dif_neg hstrip, if_neg hstrip]
          split
          · next hlast =>
            simp only [hlast]
          · next hlast =>
            simp only [hlast]
            split <;> rfl

theorem readExpr_of_trimmed (h : Trimmed text) : readExpr v text = readTrimmed v text := by
  have hempty : text.isEmpty = false := List.isEmpty_eq_false_iff.mpr h.ne_nil
  rw [readExpr_eq, h.trim_self, hempty, if_neg Bool.false_ne_true]

theorem readExpr_trim (v : Vocabulary) (source : List Char) :
    readExpr v (trim source) = readExpr v source := by
  rw [readExpr_eq, readExpr_eq, trim_trim]

theorem trimmed_of_readExpr (h : readExpr v source = .ok e) : Trimmed (trim source) := by
  rw [readExpr_eq] at h
  split at h
  · cases h
  · next hempty =>
    exact trimmed_trim (List.isEmpty_eq_false_iff.mp (by simpa using hempty))

/-! ## What is read derives -/

theorem passed_openers (level : Level) :
    ∀ operators ∈ level.passed, ∀ c ∈ operators, c ∈ "+-*/(,".toList := by
  cases level <;> decide

/-- The operators of a level are not found in a text. -/
def Unfound (level : Level) (text : List Char) : Prop :=
  ∀ operators ∈ level.passed, cutOperator? operators text = none

theorem Unfound.trim (h : Unfound level text) : Unfound level (trim text) :=
  fun operators hmem => cutOperator?_trim (passed_openers level operators hmem) (h operators hmem)

namespace Unfound

theorem sum : Unfound .sum text :=
  fun _ hpassed => nomatch hpassed

theorem product (hlooser : cutOperator? ['+', '-'] text = none) : Unfound .product text := by
  intro operators hpassed
  rw [List.mem_singleton.mp hpassed]
  exact hlooser

theorem factor (hlooser : cutOperator? ['+', '-'] text = none)
    (htighter : cutOperator? ['*', '/'] text = none) : Unfound .factor text := by
  intro operators hpassed
  rcases List.mem_cons.mp hpassed with rfl | hpassed
  · exact hlooser
  · rw [List.mem_singleton.mp hpassed]
    exact htighter

end Unfound

theorem IsSourceText.of_enclosed (h : IsSourceText ('(' :: (body ++ [')']))) :
    IsSourceText body :=
  fun c hc => h c (by simp [hc])

theorem inner_eq (body : List Char) : Text.inner ('(' :: (body ++ [')'])) = trim body := by
  rw [Text.inner, List.drop_one, List.tail_cons, List.dropLast_concat]

/-- A text whose parentheses can be taken away derives what is left. -/
theorem derives_of_strip {limit : Option Nat} (hstrip : stripEnclosing text ≠ text)
    (h : Derives limit .sum (trim (stripEnclosing text)) e) : Derives limit .factor text e := by
  fun_induction stripEnclosing text with
  | case1 text henclosed ih =>
      rcases exists_of_isEnclosed henclosed with ⟨body, rfl, hinner⟩
      rcases exists_trim body with ⟨front, back, hfront, hback, hparts⟩
      have hbody : Derives limit .sum (trim body) e := by
        rw [← hinner]
        by_cases hmore : stripEnclosing (Text.inner ('(' :: (body ++ [')']))) =
            Text.inner ('(' :: (body ++ [')']))
        · rw [hmore, hinner, trim_trim] at h
          rwa [hinner]
        · exact (ih hmore h).toSum
      have hderives := Derives.enclosed hfront hbody hback
      rwa [← hparts] at hderives
  | case2 text _ => exact absurd rfl hstrip

theorem operator_sign (h : c ∈ ['+', '-', '*', '/']) : (operator c).sign = c := by
  revert c
  decide

theorem operator_looser (h : c ∈ ['+', '-']) : operator c = .add ∨ operator c = .sub := by
  revert c
  decide

theorem operator_tighter (h : c ∈ ['*', '/']) : operator c = .mul ∨ operator c = .div := by
  revert c
  decide

theorem not_looser (h : c ∈ ['*', '/']) : c ∉ ['+', '-'] := by
  revert c
  decide

theorem lastOperator?_eq_some (h : lastOperator? text = some (left, c, right)) :
    cutOperator? ['+', '-'] text = some (left, c, right) ∨
      (cutOperator? ['+', '-'] text = none ∧ cutOperator? ['*', '/'] text = some (left, c, right)) := by
  rwa [lastOperator?, Option.orElse_eq_orElse, Option.orElse_eq_or, Option.or_eq_some_iff] at h

theorem lastOperator?_parts (h : lastOperator? text = some (left, c, right)) :
    text = left ++ c :: right := by
  rcases lastOperator?_eq_some h with h | ⟨_, h⟩
  · exact (cutOperator?_eq_some (by decide) h).1
  · exact (cutOperator?_eq_some (by decide) h).1

theorem lastOperator?_eq_none (h : lastOperator? text = none) (level : Level) :
    Unfound level text := by
  rw [lastOperator?, Option.orElse_eq_orElse, Option.orElse_eq_or, Option.or_eq_none_iff] at h
  cases level with
  | sum => exact .sum
  | product => exact .product h.1
  | factor => exact .factor h.1 h.2

/-- What derives at each level whose operators are not found in it. -/
def Sound (text : List Char) (e : Expr Float) : Prop :=
  ∀ level, Unfound level text → Derives (some digitLimit) level (trim text) e

/-- Around an operator of a trimmed text stand the trimmed operands and blanks. -/
theorem exists_operands (h : Trimmed (left ++ c :: right)) (hleft : trim left ≠ [])
    (hright : trim right ≠ []) :
    ∃ front back, Blanks front ∧ Blanks back ∧
      left ++ c :: right = trim left ++ front ++ c :: (back ++ trim right) := by
  have hsplit : Trimmed (left ++ [c] ++ right) := by simpa using h
  rcases h.left_part with hnil | ⟨front, hfront, hleft⟩
  · exact absurd hnil hleft
  · rcases hsplit.right_part with hnil | ⟨back, hback, hright⟩
    · exact absurd hnil hright
    · exact ⟨front, back, hfront, hback, by rw [← hleft, ← hright]⟩

/-- The two parts at the last operator derive its operands. -/
theorem derives_of_parts {l r : Expr Float} (htrim : Trimmed text)
    (hlast : lastOperator? text = some (left, c, right)) (hleft : Sound left l)
    (hright : Sound right r) (hleftNil : trim left ≠ []) (hrightNil : trim right ≠ [])
    (hlevel : Unfound level text) :
    Derives (some digitLimit) level text (.binary (operator c) l r) := by
  rcases lastOperator?_eq_some hlast with hcut | ⟨hnone, hcut⟩
  · rcases cutOperator?_eq_some (by decide) hcut with ⟨rfl, hmem, hlater, _⟩
    rcases exists_operands htrim hleftNil hrightNil with ⟨front, back, hfront, hback, hparts⟩
    have hfound : ['+', '-'] ∉ level.passed := by
      intro hpassed
      rw [hlevel _ hpassed] at hcut
      cases hcut
    have hderives := Derives.sum (operator_looser hmem) (hleft .sum .sum) hfront hback
      (hright .product (.product hlater))
    rw [operator_sign (List.mem_append_left ['*', '/'] hmem), ← hparts] at hderives
    cases level with
    | sum => exact hderives
    | product => exact absurd List.mem_cons_self hfound
    | factor => exact absurd List.mem_cons_self hfound
  · rcases cutOperator?_eq_some (by decide) hcut with ⟨rfl, hmem, hlater, hothers⟩
    rcases exists_operands htrim hleftNil hrightNil with ⟨front, back, hfront, hback, hparts⟩
    have hlooser := hothers _ (not_looser hmem) hnone
    have hderives := Derives.product (operator_tighter hmem) (hleft .product (.product hlooser.1))
      hfront hback (hright .factor (.factor hlooser.2 hlater))
    rw [operator_sign (List.mem_append_right ['+', '-'] hmem), ← hparts] at hderives
    cases level with
    | sum => exact .ofProduct hderives
    | product => exact hderives
    | factor =>
        rw [hlevel ['*', '/'] (by decide)] at hcut
        cases hcut

theorem isSourceText_of_strip (h : IsSourceText text) : IsSourceText (stripEnclosing text) := by
  fun_induction stripEnclosing text with
  | case1 text henclosed ih =>
      apply ih
      rcases exists_of_isEnclosed henclosed with ⟨body, rfl, hinner⟩
      rw [hinner]
      exact h.of_enclosed.trim
  | case2 text _ => exact h

theorem not_isNumeral_of_readLiteral? (h : readLiteral? text = none) : ¬ IsNumeral text := by
  intro hform
  have hread := readLiteral?_isSome_iff.mpr hform
  rw [h] at hread
  cases hread

/-- A minus sign before what is read derives the negated operand. -/
theorem derives_of_negated {rest : List Char} (htrim : Trimmed ('-' :: rest))
    (hlast : lastOperator? ('-' :: rest) = none) (hliteral : readLiteral? ('-' :: rest) = none)
    (hsound : Sound rest e) (hnil : trim rest ≠ []) :
    Derives (some digitLimit) .factor ('-' :: rest) (.binary .sub (.literal 0.0) e) := by
  have hrest : Unfound .factor rest := by
    intro operators hpassed
    exact cutOperator?_eq_none_of_cons (by decide) (lastOperator?_eq_none hlast .factor operators hpassed)
  have hsplit : Trimmed (['-'] ++ rest) := htrim
  rcases hsplit.right_part with hempty | ⟨gap, hgap, hparts⟩
  · exact absurd hempty hnil
  · have hform : ¬ IsNumeral ('-' :: (gap ++ trim rest)) := by
      rw [← hparts]
      exact not_isNumeral_of_readLiteral? hliteral
    have hderives := Derives.negated hgap (hsound .factor hrest) hform
    rwa [← hparts] at hderives

/-- What is read derives. -/
theorem sound_of_readExpr (h : IsSourceText source) (hread : readExpr {} source = .ok e) :
    Sound source e := by
  have htrim := trimmed_of_readExpr hread
  fun_induction readExpr {} source generalizing e
  case case1 => cases hread
  case case2 source text hempty numeral hliteral =>
    intro level _
    cases hread
    have hform : IsNumeral text := readLiteral?_isSome_iff.mp (by rw [hliteral]; rfl)
    exact (Derives.numeral hform (readReal?_of_readLiteral? hliteral)).of_factor level
  case case3 source text hempty hliteral hstrip ih =>
    intro level _
    have hsound := ih (isSourceText_of_strip h.trim) hread (trimmed_of_readExpr hread)
    exact (derives_of_strip hstrip (hsound .sum .sum)).of_factor level
  case case4 => cases hread
  case case5 source text hempty hliteral hstrip left c right hlast hmissing ihleft ihright =>
    intro level hlevel
    rcases bind_eq_ok.mp hread with ⟨l, hleft, hread⟩
    rcases bind_eq_ok.mp hread with ⟨r, hright, hread⟩
    cases hread
    have htext : IsSourceText (left ++ c :: right) := by
      rw [← (lastOperator?_parts hlast)]
      exact h.trim
    rw [IsSourceText.append_iff, IsSourceText.cons_iff] at htext
    have hleftTrim := trimmed_of_readExpr hleft
    have hrightTrim := trimmed_of_readExpr hright
    exact derives_of_parts htrim hlast (ihleft htext.1 hleft hleftTrim)
      (ihright htext.2.2 hright hrightTrim) hleftTrim.ne_nil hrightTrim.ne_nil hlevel.trim
  case case6 source text hempty hliteral hstrip hlast hsign ih =>
    intro level _
    rcases bind_eq_ok.mp hread with ⟨operand, hoperand, hread⟩
    cases hread
    rcases List.head?_eq_some_iff.mp hsign with ⟨rest, hrest⟩
    have hdrop : text.drop 1 = rest := by
      rw [hrest]
      rfl
    have hsource : IsSourceText text := h.trim
    rw [hrest, IsSourceText.cons_iff] at hsource
    rw [hdrop] at hoperand ih
    rw [show trim source = '-' :: rest from hrest] at htrim ⊢
    rw [hrest] at hlast hliteral
    have hoperandTrim := trimmed_of_readExpr hoperand
    exact (derives_of_negated htrim hlast hliteral (ih hsource.2 hoperand hoperandTrim)
      hoperandTrim.ne_nil).of_factor level
  case case7 source text hempty hliteral hstrip hlast hsign =>
    intro level _
    exact (Derives.atom (isAtom_of_readOperand h.trim htrim hread)).of_factor level

/-! ## What derives is read -/

theorem readLiteral?_eq_none (h : ¬ IsNumeral text) : readLiteral? text = none := by
  cases hread : readLiteral? text with
  | none => rfl
  | some numeral => exact absurd (readLiteral?_isSome_iff.mp (by rw [hread]; rfl)) h

theorem stripEnclosing_eq_self (h : isEnclosed text = false) : stripEnclosing text = text := by
  rw [stripEnclosing, h]
  rfl

theorem not_isNumeral_of_front {rest : List Char} (hc : isDigit c = false ∧ c ≠ '.' ∧ c ≠ '-') :
    ¬ IsNumeral (c :: rest) := by
  intro hform
  rcases hform.front with ⟨d, tail, hcons, hd⟩
  cases hcons
  rcases hd with hd | hd | hd
  · rw [hc.1] at hd
    cases hd
  · exact hc.2.1 hd
  · exact hc.2.2 hd

theorem ne_of_letter (h : c.isAlpha = true ∨ c = '_') (other : Char)
    (hother : ¬ (other.isAlpha = true ∨ other = '_')) : c ≠ other := by
  rintro rfl
  exact hother h

/-- A text in which an operator is found is no numeral. -/
theorem not_isNumeral_of_cut {operators : List Char} {found : List Char × Char × List Char}
    (hoperators : ∀ c ∈ operators, c ∈ ['+', '-', '*', '/'])
    (h : cutOperator? operators text = some found) : ¬ IsNumeral text := by
  intro hform
  rw [(skips_numeral hoperators hform .nil).eq_none] at h
  cases h

/-- Parentheses that are taken away first do not matter. -/
theorem readExpr_strip (h : Trimmed text) : readExpr v (stripEnclosing text) = readExpr v text := by
  by_cases hstrip : stripEnclosing text = text
  · rw [hstrip]
  · cases henclosed : isEnclosed text with
    | false => exact absurd (stripEnclosing_eq_self henclosed) hstrip
    | true =>
        rcases exists_of_isEnclosed henclosed with ⟨body, rfl, _⟩
        rw [readExpr_of_trimmed h, readTrimmed, readLiteral?_eq_none (not_isNumeral_of_front (by decide))]
        exact (if_pos hstrip).symm

theorem trimmed_round (body : List Char) : Trimmed ('(' :: (body ++ [')'])) :=
  ⟨⟨'(', _, rfl, by decide⟩, ⟨'(' :: body, ')', rfl, by decide⟩⟩

/-- The parentheses around a balanced text are taken away with all that enclose
what they hold. -/
theorem stripEnclosing_round (h : Balanced body) :
    stripEnclosing ('(' :: (body ++ [')'])) = stripEnclosing (trim body) := by
  rw [stripEnclosing, dif_pos h.isEnclosed_round, inner_eq]

theorem stripEnclosing_round_ne (h : Balanced body) :
    stripEnclosing ('(' :: (body ++ [')'])) ≠ '(' :: (body ++ [')']) := by
  intro hsame
  have hlength := length_stripEnclosing_le (trim body)
  rw [← stripEnclosing_round h, hsame] at hlength
  have htrim := length_trim_le body
  simp only [List.length_cons, List.length_append] at hlength
  omega

/-- An expression in parentheses is read as the expression. -/
theorem readExpr_round (h : Balanced body) :
    readExpr v ('(' :: (body ++ [')'])) = readExpr v body := by
  rw [readExpr_of_trimmed (trimmed_round body), readTrimmed,
    readLiteral?_eq_none (not_isNumeral_of_front (by decide))]
  dsimp only
  rw [if_pos (stripEnclosing_round_ne h), stripEnclosing_round h]
  by_cases hnil : trim body = []
  · rw [hnil, stripEnclosing_eq_self (by decide), ← readExpr_trim v body, hnil]
  · rw [readExpr_strip (trimmed_trim hnil), readExpr_trim]

/-- A text divided at its last operator is read when its operands are. -/
theorem readExpr_of_lastOperator {l r : Expr Float} (htrim : Trimmed text)
    (hform : ¬ IsNumeral text) (henclosed : isEnclosed text = false)
    (hlast : lastOperator? text = some (left, c, right)) (hleft : readExpr v left = .ok l)
    (hright : readExpr v right = .ok r) :
    readExpr v text = .ok (.binary (operator c) l r) := by
  have hleftNil := (trimmed_of_readExpr hleft).ne_nil
  have hrightNil := (trimmed_of_readExpr hright).ne_nil
  rw [readExpr_of_trimmed htrim, readTrimmed, readLiteral?_eq_none hform]
  dsimp only
  rw [stripEnclosing_eq_self henclosed, if_neg (fun h => h rfl), hlast]
  dsimp only
  rw [if_neg (by simp [hleftNil, hrightNil]), hleft, hright]
  rfl

/-- A text without operators outside brackets is read as an operand or as the
negation of one. -/
theorem readExpr_of_no_operator (htrim : Trimmed text) (hform : ¬ IsNumeral text)
    (henclosed : isEnclosed text = false) (hlast : lastOperator? text = none) :
    readExpr v text =
      if text.head? = some '-' then do
        let operand ← readExpr v (text.drop 1)
        return .binary .sub (.literal 0.0) operand
      else readOperand v text := by
  rw [readExpr_of_trimmed htrim, readTrimmed, readLiteral?_eq_none hform]
  dsimp only
  rw [stripEnclosing_eq_self henclosed, if_neg (fun h => h rfl), hlast]

/-- In a factor no operator is found. -/
theorem lastOperator?_of_placed (h : Placed .factor text) : lastOperator? text = none := by
  have hlooser := (h.skips ['+', '-'] (by decide) [] .nil).eq_none
  have htighter := (h.skips ['*', '/'] (by decide) [] .nil).eq_none
  rw [lastOperator?, hlooser, htighter]
  rfl

/-- The scan stops at an operator between two operands, when it passes over the
second one. -/
theorem cutOperator?_join (operators : List Char) (op : Operator) (hmem : op.sign ∈ operators)
    (hoperators : ∀ c ∈ operators, c ∈ ['+', '-', '*', '/']) (hleft : Complete left)
    (hfront : Blanks front) (hback : Blanks back)
    (hright : ∀ before, AwaitsOperand before → Skips operators right before) :
    cutOperator? operators (left ++ front ++ op.sign :: (back ++ right)) =
      some (left ++ front, op.sign, back ++ right) := by
  have hreverse : (left ++ front ++ op.sign :: (back ++ right)).reverse =
      right.reverse ++ (back.reverse ++ op.sign :: (front.reverse ++ (left.reverse ++ []))) := by
    simp
  have hoperand := hright _ (awaits_after_sign hback op (front.reverse ++ (left.reverse ++ []))) []
  have hgap := skips_inert hoperators (.of_blanks hback)
    (op.sign :: (front.reverse ++ (left.reverse ++ []))) (right ++ [])
  have hstop : stopsAt operators 0 op.sign (front.reverse ++ (left.reverse ++ [])) = true := by
    rw [stopsAt, hleft.isJoining_eq .nil hfront.reverse, List.contains_iff_mem.mpr hmem]
    cases op <;> rfl
  rw [cutOperator?, hreverse, hoperand, hgap, cutOperatorFrom_cons, if_pos hstop]
  simp

/-- An atom is left to the reader of operands, whatever the limit on ids. -/
theorem readExpr_of_isAtom {limit : Option Nat} (hatom : IsAtom limit text e) :
    readExpr v text = readOperand v text := by
  have hplaced := (Derives.atom hatom).placed
  rcases hatom.front with ⟨c, rest, rfl, hc⟩
  have henclosed : isEnclosed (c :: rest) = false := by
    simp [isEnclosed, ne_of_letter hc '(' (by decide)]
  have hform : ¬ IsNumeral (c :: rest) := not_isNumeral_of_front
    ⟨isDigit_of_letter hc, ne_of_letter hc '.' (by decide), ne_of_letter hc '-' (by decide)⟩
  have hminus : (c :: rest).head? ≠ some '-' := by
    simpa using ne_of_letter hc '-' (by decide)
  rw [readExpr_of_no_operator hplaced.trimmed hform henclosed (lastOperator?_of_placed hplaced),
    if_neg hminus]

theorem operator_of_sign (op : Operator) : operator op.sign = op := by
  cases op <;> rfl

section Join

variable {first second : Level} {op : Operator} {l r : Expr Float}

/-- Two operands with an operator between them are read when the operands are,
if the operator is the last one. -/
theorem readExpr_join (hleft : Placed first left) (hfront : Blanks front) (hback : Blanks back)
    (hright : Placed second right) (hjoin : Placed level (left ++ front ++ op.sign :: (back ++ right)))
    (hlast : lastOperator? (left ++ front ++ op.sign :: (back ++ right)) =
      some (left ++ front, op.sign, back ++ right))
    (hl : readExpr v left = .ok l) (hr : readExpr v right = .ok r) :
    readExpr v (left ++ front ++ op.sign :: (back ++ right)) = .ok (.binary op l r) := by
  have hform : ¬ IsNumeral (left ++ front ++ op.sign :: (back ++ right)) := by
    rcases lastOperator?_eq_some hlast with hcut | ⟨_, hcut⟩
    · exact not_isNumeral_of_cut (by decide) hcut
    · exact not_isNumeral_of_cut (by decide) hcut
  have henclosed : isEnclosed (left ++ front ++ op.sign :: (back ++ right)) = false := by
    rw [List.append_assoc]
    exact hleft.balanced.isEnclosed_append hleft.ne_nil (by simp)
  have hleftTrim : trim (left ++ front) = left := by
    have htrim := hleft.trimmed.trim_eq Blanks.nil hfront
    rwa [List.nil_append] at htrim
  have hrightTrim : trim (back ++ right) = right := by
    have htrim := hright.trimmed.trim_eq hback Blanks.nil
    rwa [List.append_nil] at htrim
  have hread := readExpr_of_lastOperator hjoin.trimmed hform henclosed hlast
    (by rw [← readExpr_trim, hleftTrim]; exact hl) (by rw [← readExpr_trim, hrightTrim]; exact hr)
  rwa [operator_of_sign] at hread

end Join

theorem readExpr_numeral {v : Vocabulary} {value : Float} (hform : IsNumeral text)
    (hvalue : readReal? text = some value) : readExpr v text = .ok (.literal value) := by
  cases hread : readLiteral? text with
  | none => exact absurd hform (not_isNumeral_of_readLiteral? hread)
  | some numeral =>
      rw [readReal?_of_readLiteral? hread] at hvalue
      cases hvalue
      rw [readExpr_of_trimmed hform.trimmed, readTrimmed, hread]

/-- Every derivation is read as the expression that it denotes. -/
theorem readExpr_of_derives (h : IsSourceText text)
    (hderives : Derives (some digitLimit) level text e) : readExpr {} text = .ok e := by
  have hplaced := hderives.placed
  induction hderives with
  | numeral hform hvalue => exact readExpr_numeral hform hvalue
  | @negated gap operand e hgap hoperand hform ih =>
      rw [IsSourceText.cons_iff, IsSourceText.append_iff] at h
      have hinner := ih h.2.2 hoperand.placed
      have htrim := hoperand.placed.trimmed.trim_eq hgap Blanks.nil
      rw [List.append_nil] at htrim
      have henclosed : isEnclosed ('-' :: (gap ++ operand)) = false := rfl
      rw [readExpr_of_no_operator hplaced.trimmed hform henclosed (lastOperator?_of_placed hplaced),
        if_pos List.head?_cons, List.drop_one, List.tail_cons, ← readExpr_trim, htrim, hinner]
      rfl
  | atom hatom => rw [readExpr_of_isAtom hatom, readOperand_of_isAtom h hatom]
  | @enclosed front body back e hfront hbody hback ih =>
      have hbalanced := ((Balanced.of_blanks hfront).append hbody.placed.balanced).append
        (.of_blanks hback)
      have hsource := h.of_enclosed
      rw [IsSourceText.append_iff, IsSourceText.append_iff] at hsource
      rw [readExpr_round hbalanced, ← readExpr_trim, hbody.placed.trimmed.trim_eq hfront hback]
      exact ih hsource.1.2 hbody.placed
  | ofFactor hfactor ih => exact ih h hfactor.placed
  | ofProduct hproduct ih => exact ih h hproduct.placed
  | @product left front back right l r op hop hleft hfront hback hright ihleft ihright =>
      rw [IsSourceText.append_iff, IsSourceText.append_iff, IsSourceText.cons_iff,
        IsSourceText.append_iff] at h
      have hl := ihleft h.1.1 hleft.placed
      have hr := ihright h.2.2.2 hright.placed
      apply readExpr_join hleft.placed hfront hback hright.placed hplaced _ hl hr
      have hlooser := (hplaced.skips ['+', '-'] (by decide) [] .nil).eq_none
      have htighter := cutOperator?_join ['*', '/'] op
        (by rcases hop with rfl | rfl <;> decide) (by decide) hleft.placed.complete hfront hback
        (hright.placed.skips ['*', '/'] (by decide))
      rw [lastOperator?, hlooser, htighter]
      rfl
  | @sum left front back right l r op hop hleft hfront hback hright ihleft ihright =>
      rw [IsSourceText.append_iff, IsSourceText.append_iff, IsSourceText.cons_iff,
        IsSourceText.append_iff] at h
      have hl := ihleft h.1.1 hleft.placed
      have hr := ihright h.2.2.2 hright.placed
      apply readExpr_join hleft.placed hfront hback hright.placed hplaced _ hl hr
      have hlooser := cutOperator?_join ['+', '-'] op
        (by rcases hop with rfl | rfl <;> decide) (by decide) hleft.placed.complete hfront hback
        (hright.placed.skips ['+', '-'] (by decide))
      rw [lastOperator?, hlooser]
      rfl

/-! ## The reader and the grammar -/

/-- The reader accepts exactly the expressions of the grammar whose process ids
have no more digits than the limit, and reads each of them as its expression. -/
theorem readExpr_reads_exactly_derivable (text : List Char) (h : IsSourceText text) :
    (∀ e, readExpr {} text = .ok e ↔ IsExpression (some digitLimit) text e) ∧
      ((∀ e, ¬ IsExpression (some digitLimit) text e) →
        ∃ fault, readExpr {} text = .error fault) := by
  have hiff : ∀ e, readExpr {} text = .ok e ↔ IsExpression (some digitLimit) text e := by
    intro e
    constructor
    · intro hread
      rcases exists_trim text with ⟨front, back, hfront, hback, hparts⟩
      rw [hparts]
      exact .intro hfront (sound_of_readExpr h hread .sum .sum) hback
    · intro hform
      cases hform with
      | intro hfront hbody hback =>
          rw [IsSourceText.append_iff, IsSourceText.append_iff] at h
          rw [← readExpr_trim, hbody.placed.trimmed.trim_eq hfront hback]
          exact readExpr_of_derives h.1.2 hbody
  refine ⟨hiff, fun hnone => ?_⟩
  cases hread : readExpr {} text with
  | error fault => exact ⟨fault, rfl⟩
  | ok e => exact absurd ((hiff e).mp hread) (hnone e)

theorem readExpr_reads_signed_product :
    IsSourceText "a * -b - (1e-3)".toList ∧
      IsExpression (some digitLimit) "a * -b - (1e-3)".toList
        (.binary .sub
          (.binary .mul (.parameter "a") (.binary .sub (.literal 0.0) (.parameter "b")))
          (.literal 0.001)) := by
  have htext : IsSourceText "a * -b - (1e-3)".toList := by
    show ∀ c ∈ "a * -b - (1e-3)".toList, isSourceChar c = true
    decide
  exact ⟨htext, ((readExpr_reads_exactly_derivable _ htext).1 _).mp (by decide +kernel)⟩

/-! ## Ids that are too long -/

/-- A process id of more digits than the limit is refused. -/
theorem readExpr_ne_ok_of_long_id {digits : List Char} {id : Int} (h : IsSourceText text)
    (hcall : IsCall "value_from" text digits) (hid : IsId none digits id)
    (hlong : digitLimit < digits.length) : readExpr {} text ≠ .ok e := by
  have hatom : IsAtom none text (.valueFrom id) := by
    have hpadded : IsCall "value_from" text ([] ++ digits ++ []) := by simpa using hcall
    exact .valueFrom hpadded Blanks.nil Blanks.nil hid
  rw [readExpr_of_isAtom hatom, Ne, readOperand_valueFrom_iff h hcall.word_begins]
  rintro ⟨front, found, back, _, hfront, hback, hother, hfound, _⟩
  have hsame : digits = front ++ found ++ back := IsCall.argument_eq h hcall hother
  have htrim := (trimmed_of_isNumber hid.number).trim_self
  rw [hsame, (trimmed_of_isNumber hfound.number).trim_eq hfront hback, ← hsame] at htrim
  rw [← htrim] at hlong
  exact absurd (hfound.short digitLimit rfl) (Nat.not_le.mpr hlong)

/-- The digits of the id one behind as many zeros as the limit has digits. -/
def paddedOne : List Char :=
  List.replicate digitLimit '0' ++ ['1']

theorem eq_of_mem_paddedOne {c : Char} (hc : c ∈ paddedOne) : c = '0' ∨ c = '1' := by
  rcases List.mem_append.mp hc with hc | hc
  · exact .inl (List.eq_of_mem_replicate hc)
  · exact .inr (List.mem_singleton.mp hc)

theorem isNumber_paddedOne : isNumber paddedOne = true := by
  refine digits_iff.mpr ⟨by simp [paddedOne], ?_⟩
  intro c hc
  rcases eq_of_mem_paddedOne hc with rfl | rfl
  · decide
  · decide

/-- Zeros in front do not change a number. -/
theorem digitsValue_paddedOne : digitsValue paddedOne = 1 := by
  have hzeros : ∀ zeros, digitsValue (List.replicate zeros '0' ++ ['1']) = 1 := by
    intro zeros
    induction zeros with
    | zero => decide
    | succ zeros ih => exact ih
  exact hzeros digitLimit

theorem isSourceText_paddedOne : IsSourceText paddedOne := by
  intro c hc
  rcases eq_of_mem_paddedOne hc with rfl | rfl
  · decide
  · decide

theorem isId_paddedOne : IsId none paddedOne 1 := by
  constructor
  · exact isNumber_paddedOne
  · intro most hmost
    cases hmost
  · rw [digitsValue_paddedOne]
    rfl
  · decide

/-- A call for the value from the process with the padded id. -/
def paddedCall : List Char :=
  "value_from".toList ++ ([] ++ '(' :: (paddedOne ++ [')']))

theorem isCall_paddedCall : IsCall "value_from" paddedCall paddedOne := by
  apply IsCall.intro _ Blanks.nil
  show "value_from".toList.map Char.toLower = "value_from".toList
  decide

theorem isSourceText_paddedCall : IsSourceText paddedCall := by
  have hword : IsSourceText "value_from(".toList := by
    show ∀ c ∈ "value_from(".toList, isSourceChar c = true
    decide
  have hlast : IsSourceText [')'] := by
    show ∀ c ∈ [')'], isSourceChar c = true
    decide
  have hcall := IsSourceText.append_iff.mpr ⟨hword, IsSourceText.append_iff.mpr
    ⟨isSourceText_paddedOne, hlast⟩⟩
  exact hcall

/-- Without a limit on its digits the id one could be padded with any number of
zeros; the reader refuses the padded id. -/
theorem readExpr_refuses_padded_id :
    IsSourceText paddedCall ∧ IsExpression none paddedCall (.valueFrom 1) ∧
      ∀ e, readExpr {} paddedCall ≠ .ok e := by
  refine ⟨isSourceText_paddedCall, ?_, fun e => ?_⟩
  · have hpadded : IsCall "value_from" paddedCall ([] ++ paddedOne ++ []) := by
      rw [List.append_nil]
      exact isCall_paddedCall
    have hatom := Derives.atom (IsAtom.valueFrom hpadded Blanks.nil Blanks.nil isId_paddedOne)
    have hform := IsExpression.intro Blanks.nil hatom.toSum Blanks.nil
    rwa [List.nil_append, List.append_nil] at hform
  · apply readExpr_ne_ok_of_long_id isSourceText_paddedCall isCall_paddedCall isId_paddedOne
    simp [paddedOne]

end LossyConsensus.Source
