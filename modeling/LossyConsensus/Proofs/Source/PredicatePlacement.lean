/-
# Derived predicates in place

Every text that derives a predicate is trimmed, has matched brackets and begins with no
connective.  The scan for a connective passes over what is bound more tightly than this
connective, so the first one that it finds is the one at the root of the derivation.
-/

import LossyConsensus.Proofs.Source.PredicateScan

namespace LossyConsensus.Source

open LossyConsensus.Decimal LossyConsensus.Protocol LossyConsensus.Text

variable {limit : Option Nat} {word : String} {p : Predicate Float}
  {text small head argument following : List Char} {shown : Char → Char}

/-! ## Atoms -/

theorem balanced_of_isWordOf (h : IsWordOf word head)
    (hword : ∀ c ∈ word.toList, c.isAlpha = true ∨ c = '_') : Balanced head := by
  have hmarks : ∀ c ∈ word.toList, c ∉ marks :=
    fun c hc => not_mem_marks_of_word (word_of_letter (hword c hc))
  exact (h.inert hmarks).balanced

theorem IsCall.balanced (h : IsCall word text argument)
    (hword : ∀ c ∈ word.toList, c.isAlpha = true ∨ c = '_') (hargument : Balanced argument) :
    Balanced text := by
  cases h with
  | intro hhead hgap =>
      exact (balanced_of_isWordOf hhead hword).append ((Balanced.of_blanks hgap).append
        hargument.round)

theorem IsAbout.balanced (h : IsAbout word text)
    (hword : ∀ c ∈ word.toList, c.isAlpha = true ∨ c = '_') : Balanced text := by
  cases h with
  | plain hhead => exact balanced_of_isWordOf hhead hword
  | named hhead hname =>
      exact (balanced_of_isWordOf hhead hword).append (balanced_of_isWordOf hname (by decide)).round

theorem balanced_digits {front digits back : List Char} (hfront : Blanks front)
    (hnumber : isNumber digits = true) (hback : Blanks back) : Balanced (front ++ digits ++ back) :=
  ((Balanced.of_blanks hfront).append (Inert.of_number hnumber).balanced).append (.of_blanks hback)

theorem balanced_name {front name back : List Char} (hfront : Blanks front)
    (hname : IsWordOf "x" name) (hback : Blanks back) : Balanced (front ++ name ++ back) :=
  ((Balanced.of_blanks hfront).append (balanced_of_isWordOf hname (by decide))).append
    (.of_blanks hback)

theorem IsPredicateAtom.balanced (h : IsPredicateAtom limit text p) : Balanced text := by
  cases h with
  | receivedAny habout => exact habout.balanced (by decide)
  | receivedAll habout => exact habout.balanced (by decide)
  | receivedMajority habout => exact habout.balanced (by decide)
  | isLeader hself hbetween _ his hgap _ hleader =>
      exact (balanced_of_isWordOf hself (by decide)).append ((Balanced.of_blanks hbetween).append
        ((balanced_of_isWordOf his (by decide)).append ((Balanced.of_blanks hgap).append
          (balanced_of_isWordOf hleader (by decide)))))
  | receivedDiff hword => exact balanced_of_isWordOf hword (by decide)
  | receivedDiffOf hcall hfront hback hname =>
      exact hcall.balanced (by decide) (balanced_name hfront hname hback)
  | receivedAtLeast hcall hfront hback hnumber _ =>
      exact hcall.balanced (by decide) (balanced_digits hfront hnumber hback)
  | receivedFrom hcall hfront hback hid =>
      exact hcall.balanced (by decide) (balanced_digits hfront hid.number hback)

/-- A word in any case begins as the word does. -/
theorem IsWordOf.exists_front (h : IsWordOf word head) {small : Char} {more : List Char}
    (hword : word.toList = small :: more) : ∃ c rest, head = c :: rest ∧ c.toLower = small := by
  rw [IsWordOf, hword] at h
  obtain ⟨c, rest, rfl, hc, _⟩ := List.map_eq_cons_iff.mp h
  exact ⟨c, rest, rfl, hc⟩

theorem IsAbout.exists_front (h : IsAbout word text) {small : Char} {more : List Char}
    (hword : word.toList = small :: more) : ∃ c rest, text = c :: rest ∧ c.toLower = small := by
  cases h with
  | plain hhead => exact hhead.exists_front hword
  | named hhead _ =>
      obtain ⟨c, rest, rfl, hc⟩ := hhead.exists_front hword
      exact ⟨c, _, rfl, hc⟩

theorem IsCall.exists_front (h : IsCall word text argument) {small : Char} {more : List Char}
    (hword : word.toList = small :: more) : ∃ c rest, text = c :: rest ∧ c.toLower = small := by
  cases h with
  | intro hhead _ =>
      obtain ⟨c, rest, rfl, hc⟩ := hhead.exists_front hword
      exact ⟨c, _, rfl, hc⟩

/-- An atom begins with one of two letters. -/
theorem IsPredicateAtom.front (h : IsPredicateAtom limit text p) :
    ∃ c rest, text = c :: rest ∧ c.toLower ∈ ['r', 's'] := by
  have hletter : ∀ {text : List Char} (small : Char), small ∈ ['r', 's'] →
      (∃ c rest, text = c :: rest ∧ c.toLower = small) →
        ∃ c rest, text = c :: rest ∧ c.toLower ∈ ['r', 's'] := by
    rintro text _ hsmall ⟨c, rest, rfl, rfl⟩
    exact ⟨c, rest, rfl, hsmall⟩
  cases h with
  | receivedAny habout => exact hletter 'r' (by decide) (habout.exists_front rfl)
  | receivedAll habout => exact hletter 'r' (by decide) (habout.exists_front rfl)
  | receivedMajority habout => exact hletter 'r' (by decide) (habout.exists_front rfl)
  | @isLeader self between is gap leader hself =>
      have hfront : ∃ c rest, self = c :: rest ∧ c.toLower = 's' := hself.exists_front rfl
      obtain ⟨c, rest, rfl, hc⟩ := hfront
      exact hletter 's' (by decide) ⟨c, _, rfl, hc⟩
  | receivedDiff hword => exact hletter 'r' (by decide) (hword.exists_front rfl)
  | receivedDiffOf hcall => exact hletter 'r' (by decide) (hcall.exists_front rfl)
  | receivedAtLeast hcall => exact hletter 'r' (by decide) (hcall.exists_front rfl)
  | receivedFrom hcall => exact hletter 'r' (by decide) (hcall.exists_front rfl)

/-- A text that ends in a letter or a parenthesis ends in no blank. -/
theorem IsWordOf.exists_back (h : IsWordOf word head) (hnil : word.toList ≠ [])
    (hword : ∀ c ∈ word.toList, c.isAlpha = true ∨ c = '_') :
    ∃ init c, head = init ++ [c] ∧ isBlank c = false := by
  have hhead : head ≠ [] := by
    rintro rfl
    exact hnil h.symm
  refine ⟨_, _, (List.dropLast_concat_getLast hhead).symm, ?_⟩
  have hmem : (head.getLast hhead).toLower ∈ word.toList :=
    h ▸ List.mem_map_of_mem (List.getLast_mem hhead)
  rcases hword _ hmem with halpha | hunderscore
  · exact isBlank_of_word (word_of_letter (.inl (isAlpha_of_toLower halpha)))
  · exact isBlank_of_word (.inr (eq_of_toLower_eq (by decide) hunderscore))

theorem IsPredicateAtom.back (h : IsPredicateAtom limit text p) :
    ∃ init c, text = init ++ [c] ∧ isBlank c = false := by
  have habout : ∀ {word : String} {text : List Char}, IsAbout word text → word.toList ≠ [] →
      (∀ c ∈ word.toList, c.isAlpha = true ∨ c = '_') →
        ∃ init c, text = init ++ [c] ∧ isBlank c = false := by
    intro word text h hnil hword
    cases h with
    | plain hhead => exact hhead.exists_back hnil hword
    | @named head name _ _ => exact ⟨head ++ '(' :: name, ')', by simp [enclosed], by decide⟩
  have hcalled : ∀ {word : String} {text argument : List Char}, IsCall word text argument →
      ∃ init c, text = init ++ [c] ∧ isBlank c = false := by
    intro word text argument h
    obtain ⟨init, c, htext, hc, _⟩ := h.complete.back
    exact ⟨init, c, htext, hc⟩
  cases h with
  | receivedAny h => exact habout h (by decide) (by decide)
  | receivedAll h => exact habout h (by decide) (by decide)
  | receivedMajority h => exact habout h (by decide) (by decide)
  | @isLeader self between is gap leader _ _ _ _ _ _ hleader =>
      obtain ⟨init, c, rfl, hc⟩ := hleader.exists_back (by decide) (by decide)
      exact ⟨self ++ (between ++ (is ++ (gap ++ init))), c, by simp, hc⟩
  | receivedDiff hword => exact hword.exists_back (by decide) (by decide)
  | receivedDiffOf hcall => exact hcalled hcall
  | receivedAtLeast hcall => exact hcalled hcall
  | receivedFrom hcall => exact hcalled hcall

/-- A scan passes over the three words that name a leader. -/
theorem passes_leader {scanned self between is gap leader : List Char}
    (hscan : PassesTokens shown scanned) (hself : IsWordOf "self" self) (hbetween : Blanks between)
    (his : IsWordOf "is" is) (hgap : Blanks gap) (hgapNil : gap ≠ [])
    (hleader : IsWordOf "leader" leader) (hfollowing : atWordEnd following = true) :
    Passes shown scanned (self ++ (between ++ (is ++ (gap ++ leader)))) following := by
  have hlast : Passes shown scanned leader following := passes_word hscan hleader (by decide)
  have hsecond : Passes shown scanned gap (leader ++ following) := by
    refine hscan.blanks hgap ?_
    rw [hleader.frontWord_eq (by decide) hfollowing]
    decide
  have hend : atWordEnd (gap ++ leader ++ following) = true := by
    obtain ⟨c, gap, rfl⟩ := List.exists_cons_of_ne_nil hgapNil
    exact atWordEnd_cons (isWordChar_of_isBlank hgap.head)
  have hfirst : Passes shown scanned between (is ++ (gap ++ leader) ++ following) := by
    refine hscan.blanks hbetween ?_
    rw [List.append_assoc, his.frontWord_eq (by decide) hend]
    decide
  have hmiddle : Passes shown scanned is (gap ++ leader ++ following) :=
    passes_word hscan his (by decide)
  exact (passes_word hscan hself (by decide)).append
    (hfirst.append (hmiddle.append (hsecond.append hlast)))

/-- A scan passes over the atoms. -/
theorem IsPredicateAtom.passes {scanned : List Char} (hscan : PassesTokens shown scanned)
    (h : IsPredicateAtom limit text p) (hfollowing : atWordEnd following = true) :
    Passes shown scanned text following := by
  have habout : ∀ {word : String} {text : List Char}, IsAbout word text →
      (∀ c ∈ word.toList, c.isAlpha = true ∨ c = '_') → Passes shown scanned text following := by
    intro word text h hword
    cases h with
    | plain hhead => exact passes_word hscan hhead hword
    | named hhead hname =>
        exact (passes_word hscan hhead hword).append
          (hscan.round (balanced_of_isWordOf hname (by decide)))
  cases h with
  | receivedAny h => exact habout h (by decide)
  | receivedAll h => exact habout h (by decide)
  | receivedMajority h => exact habout h (by decide)
  | isLeader hself hbetween _ his hgap hgapNil hleader =>
      exact passes_leader hscan hself hbetween his hgap hgapNil hleader hfollowing
  | receivedDiff hword => exact passes_word hscan hword (by decide)
  | receivedDiffOf hcall hfront hback hname =>
      exact passes_call hscan hcall (by decide) (balanced_name hfront hname hback)
  | receivedAtLeast hcall hfront hback hnumber _ =>
      exact passes_call hscan hcall (by decide) (balanced_digits hfront hnumber hback)
  | receivedFrom hcall hfront hback hid =>
      exact passes_call hscan hcall (by decide) (balanced_digits hfront hid.number hback)

/-! ## Predicates -/

/-- The joining words that the scan does not find in a predicate of a level. -/
def PredicateLevel.passed : PredicateLevel → List (List Char)
  | .disjunction => []
  | .conjunction => ["or".toList]
  | .basic => ["or".toList, "and".toList]

/-- The place of a predicate of a level in a larger one. -/
structure Standing (level : PredicateLevel) (text : List Char) : Prop where
  trimmed : Trimmed text
  balanced : Balanced text
  word : ∀ {following : List Char}, atWordEnd following = true →
    frontWord (text ++ following) ∉ ["and".toList, "or".toList, "if".toList]
  passes : ∀ small ∈ level.passed, ∀ {following : List Char}, atWordEnd following = true →
    Passes Char.toLower (spaced small) text following

theorem passed_subset_joiningWords (level : PredicateLevel) :
    ∀ small ∈ level.passed, small ∈ joiningWords := by
  cases level <;> decide

theorem not_mem_of_not_mem_conditionWords (h : small ∉ conditionWords) :
    small ∉ ["and".toList, "or".toList, "if".toList] := by
  have hsubset : ∀ small ∈ ["and".toList, "or".toList, "if".toList], small ∈ conditionWords := by
    decide
  exact fun hmem => h (hsubset small hmem)

theorem ne_of_not_mem {found : List Char} (hsmall : small ∈ joiningWords)
    (h : found ∉ ["and".toList, "or".toList, "if".toList]) : found ≠ small := by
  have hsubset : ∀ small ∈ joiningWords, small ∈ ["and".toList, "or".toList, "if".toList] := by
    decide
  rintro rfl
  exact h (hsubset found hsmall)

theorem blanks_cons_space {gap : List Char} (h : Blanks gap) : Blanks (' ' :: gap) :=
  blanks_space.append h

section Joined

variable {outer first second : PredicateLevel} {left front joining back right : List Char}

/-- The parts of two predicates with a word between them, as the scan meets them. -/
theorem joined_parts (left front joining back right : List Char) :
    left ++ (front ++ ' ' :: (joining ++ ' ' :: (back ++ right))) =
      left ++ (front ++ [' '] ++ (joining ++ (' ' :: back ++ right))) := by
  simp

/-- The blanks before a joining word end what stands before them. -/
theorem atWordEnd_joining (hfront : Blanks front) (rest : List Char) :
    atWordEnd (front ++ [' '] ++ rest) = true := by
  rw [List.append_assoc]
  exact atWordEnd_blanks hfront (atWordEnd_cons (by decide))

/-- The scan for a joining word passes over two predicates that another word joins, if it
passes over each of them. -/
theorem Standing.passes_joined (hleft : Standing first left) (hfront : Blanks front)
    (hjoining : IsWordOf word joining) (hword : ∀ c ∈ word.toList, c.isAlpha = true ∨ c = '_')
    (hback : Blanks back) (hright : Standing second right) (hin : small ∈ first.passed)
    (hin' : small ∈ second.passed) (hother : word.toList ≠ small)
    (hfollowing : atWordEnd following = true) :
    Passes Char.toLower (spaced small)
      (left ++ (front ++ [' '] ++ (joining ++ (' ' :: back ++ right)))) following := by
  have hjoins := passed_subset_joiningWords _ _ hin
  have hfirst : Passes Char.toLower (spaced small) left
      (front ++ [' '] ++ (joining ++ (' ' :: back ++ right)) ++ following) := by
    rw [List.append_assoc]
    exact hleft.passes small hin (atWordEnd_joining hfront _)
  have hgap : Passes Char.toLower (spaced small) (front ++ [' '])
      (joining ++ (' ' :: back ++ right) ++ following) := by
    apply passes_blanks hjoins (hfront.append blanks_space)
    rw [List.append_assoc, hjoining.frontWord_eq hword]
    · exact hother
    · exact atWordEnd_cons (by decide)
  have hmiddle : Passes Char.toLower (spaced small) joining (' ' :: back ++ right ++ following) :=
    passes_word (passesTokens_joining hjoins) hjoining hword
  have hsecond : Passes Char.toLower (spaced small) (' ' :: back) (right ++ following) :=
    passes_blanks hjoins (blanks_cons_space hback) (ne_of_not_mem hjoins (hright.word hfollowing))
  exact hfirst.append (hgap.append (hmiddle.append (hsecond.append
    (hright.passes small hin' hfollowing))))

/-- Two predicates with a word between them. -/
theorem Standing.join (hleft : Standing first left) (hfront : Blanks front)
    (hjoining : IsWordOf word joining) (hword : ∀ c ∈ word.toList, c.isAlpha = true ∨ c = '_')
    (hback : Blanks back) (hright : Standing second right)
    (hpassed : ∀ small ∈ outer.passed,
      small ∈ first.passed ∧ small ∈ second.passed ∧ word.toList ≠ small) :
    Standing outer (left ++ (front ++ ' ' :: (joining ++ ' ' :: (back ++ right)))) := by
  rw [joined_parts]
  constructor
  · constructor
    · obtain ⟨c, rest, rfl, hc⟩ := hleft.trimmed.front
      exact ⟨c, _, rfl, hc⟩
    · obtain ⟨init, c, rfl, hc⟩ := hright.trimmed.back
      exact ⟨left ++ (front ++ [' '] ++ (joining ++ (' ' :: back ++ init))), c, by simp, hc⟩
  · have hmiddle := balanced_of_isWordOf hjoining hword
    have hbefore : Blanks (front ++ [' ']) := hfront.append blanks_space
    exact hleft.balanced.append ((Balanced.of_blanks hbefore).append
      (hmiddle.append ((Balanced.of_blanks (blanks_cons_space hback)).append hright.balanced)))
  · intro following _
    rw [List.append_assoc, List.append_assoc]
    exact hleft.word (atWordEnd_joining hfront _)
  · intro small hsmall following hfollowing
    obtain ⟨hin, hin', hother⟩ := hpassed small hsmall
    exact hleft.passes_joined hfront hjoining hword hback hright hin hin' hother hfollowing

end Joined

section Compared

variable {left front back right : List Char} {l r : Expr Float} {op : Relation}
  (hleft : Derives limit .sum left l) (hl : Expr.AvoidsWords l) (hfront : Blanks front)
  (hback : Blanks back) (hright : Derives limit .sum right r) (hr : Expr.AvoidsWords r)
include hleft hl hfront hback hright hr

omit hleft hl hback hright hr in
theorem atWordEnd_sign (rest : List Char) :
    atWordEnd (front ++ (op.sign.toList ++ rest)) = true := by
  refine atWordEnd_blanks hfront ?_
  cases op <;> exact atWordEnd_cons (by decide)

theorem passes_comparison (hsmall : small ∈ joiningWords)
    (hfollowing : atWordEnd following = true) :
    Passes Char.toLower (spaced small) (left ++ (front ++ (op.sign.toList ++ (back ++ right))))
      following := by
  have hscan := passesTokens_joining hsmall
  have hsecond : Passes Char.toLower (spaced small) back (right ++ following) :=
    hscan.blanks hback (hright.frontWord_not_mem hr hfollowing)
  have hsign : Passes Char.toLower (spaced small) op.sign.toList (back ++ right ++ following) := by
    apply Passes.of_balanced (balanced_sign_relation op)
    cases op <;> decide
  have hgap : Passes Char.toLower (spaced small) front
      (op.sign.toList ++ (back ++ right) ++ following) := by
    apply hscan.blanks hfront
    cases op <;> exact frontWord_of_front (by decide)
  have hfirst : Passes Char.toLower (spaced small) left
      (front ++ (op.sign.toList ++ (back ++ right)) ++ following) := by
    apply hleft.passes hscan hl
    rw [List.append_assoc, List.append_assoc]
    exact atWordEnd_sign hfront _
  exact hfirst.append (hgap.append (hsign.append (hsecond.append
    (hright.passes hscan hr hfollowing))))

theorem standing_comparison :
    Standing .basic (left ++ (front ++ (op.sign.toList ++ (back ++ right)))) := by
  constructor
  · constructor
    · obtain ⟨c, rest, rfl, hc⟩ := hleft.placed.front
      exact ⟨c, _, rfl, hc⟩
    · obtain ⟨init, c, rfl, hc⟩ := hright.placed.trimmed.back
      exact ⟨left ++ (front ++ (op.sign.toList ++ (back ++ init))), c, by simp, hc⟩
  · exact hleft.placed.balanced.append ((Balanced.of_blanks hfront).append
      ((balanced_sign_relation op).append ((Balanced.of_blanks hback).append
        hright.placed.balanced)))
  · intro following _
    apply not_mem_of_not_mem_conditionWords
    rw [List.append_assoc]
    apply hleft.frontWord_not_mem hl
    rw [List.append_assoc, List.append_assoc]
    exact atWordEnd_sign hfront _
  · exact fun small hsmall _ hfollowing =>
      passes_comparison hleft hl hfront hback hright hr hsmall hfollowing

end Compared

theorem balanced_padded {front body back : List Char} (hfront : Blanks front)
    (hbody : Balanced body) (hback : Blanks back) : Balanced (front ++ body ++ back) :=
  ((Balanced.of_blanks hfront).append hbody).append (.of_blanks hback)

theorem IsPredicateAtom.standing (h : IsPredicateAtom limit text p) : Standing .basic text := by
  obtain ⟨c, rest, rfl, hc⟩ := h.front
  have hblank : isBlank c = false := by
    have hletters : ∀ small ∈ ['r', 's'], small.isAlpha = true := by decide
    exact isBlank_of_word (word_of_letter (.inl (isAlpha_of_toLower (hletters _ hc))))
  refine ⟨⟨⟨c, rest, rfl, hblank⟩, h.back⟩, h.balanced, ?_, ?_⟩
  · intro following _
    have hother : ∀ small ∈ ['r', 's'], small ∉ ['a', 'o', 'n', 'i'] := by decide
    exact not_mem_of_not_mem_conditionWords (frontWord_of_front (hother _ hc))
  · exact fun small hsmall _ hfollowing => h.passes (passesTokens_joining hsmall) hfollowing

/-- A predicate after the word of negation. -/
theorem standing_negated {level : PredicateLevel} {joining gap operand : List Char}
    (hjoining : IsWordOf "not" joining) (hgap : Blanks gap) (h : Standing level operand) :
    Standing level (joining ++ ' ' :: (gap ++ operand)) := by
  constructor
  · constructor
    · obtain ⟨c, rest, rfl, hc⟩ := hjoining.front (by decide)
      exact ⟨c, _, rfl, isBlank_of_word (word_of_letter (.inl hc))⟩
    · obtain ⟨init, c, rfl, hc⟩ := h.trimmed.back
      exact ⟨joining ++ ' ' :: (gap ++ init), c, by simp, hc⟩
  · exact (balanced_of_isWordOf hjoining (by decide)).append
      ((Balanced.of_blanks (blanks_cons_space hgap)).append h.balanced)
  · intro following _
    rw [List.append_assoc, hjoining.frontWord_eq (by decide)]
    · decide
    · exact atWordEnd_cons (by decide)
  · intro small hsmall following hfollowing
    have hjoins := passed_subset_joiningWords _ _ hsmall
    have hword : Passes Char.toLower (spaced small) joining
        (' ' :: (gap ++ operand) ++ following) :=
      passes_word (passesTokens_joining hjoins) hjoining (by decide)
    have hblanks : Passes Char.toLower (spaced small) (' ' :: gap) (operand ++ following) :=
      passes_blanks hjoins (blanks_cons_space hgap) (ne_of_not_mem hjoins (h.word hfollowing))
    have hoperand : Passes Char.toLower (spaced small) (' ' :: gap ++ operand) following :=
      hblanks.append (h.passes small hsmall hfollowing)
    exact hword.append hoperand

/-- A text with matched brackets in parentheses. -/
theorem standing_enclosed {body : List Char} (hbody : Balanced body) :
    Standing .basic (enclosed body) := by
  refine ⟨trimmed_round body, hbody.round, ?_, ?_⟩
  · intro following _
    exact not_mem_of_not_mem_conditionWords (frontWord_of_front (by decide))
  · exact fun small hsmall _ _ => (passesTokens_joining hsmall).round hbody

theorem standing_negatedEnclosed {joining body : List Char} (hjoining : IsWordOf "not" joining)
    (hbody : Balanced body) : Standing .basic (joining ++ enclosed body) := by
  constructor
  · constructor
    · obtain ⟨c, rest, rfl, hc⟩ := hjoining.front (by decide)
      exact ⟨c, _, rfl, isBlank_of_word (word_of_letter (.inl hc))⟩
    · exact ⟨joining ++ '(' :: body, ')', by simp [enclosed], by decide⟩
  · exact (balanced_of_isWordOf hjoining (by decide)).append hbody.round
  · intro following _
    rw [List.append_assoc, hjoining.frontWord_eq (by decide)]
    · decide
    · exact atWordEnd_cons (by decide)
  · intro small hsmall following _
    have hscan := passesTokens_joining hsmall
    exact (passes_word hscan hjoining (by decide)).append (hscan.round hbody)

/-- Every derived predicate has its place. -/
theorem DerivesPredicate.standing {level : PredicateLevel}
    (h : DerivesPredicate limit level text p) : Standing level text := by
  induction h with
  | atom hatom => exact hatom.standing
  | compare hleft hl hfront hback hright hr =>
      exact standing_comparison hleft hl hfront hback hright hr
  | negated hword hgap _ ih => exact standing_negated hword hgap ih
  | negatedEnclosed hword hfront _ hback ih =>
      exact standing_negatedEnclosed hword (balanced_padded hfront ih.balanced hback)
  | enclosed hfront _ hback ih => exact standing_enclosed (balanced_padded hfront ih.balanced hback)
  | ofBasic _ ih =>
      exact ⟨ih.trimmed, ih.balanced, ih.word,
        fun small hsmall => ih.passes small (List.mem_append_left _ hsmall)⟩
  | ofConjunction _ ih => exact ⟨ih.trimmed, ih.balanced, ih.word, fun _ hsmall => nomatch hsmall⟩
  | conj _ hfront hword hback _ ihleft ihright =>
      exact ihleft.join hfront hword (by decide) hback ihright (by decide)
  | disj _ hfront hword hback _ ihleft ihright =>
      exact ihleft.join hfront hword (by decide) hback ihright (by decide)

end LossyConsensus.Source
