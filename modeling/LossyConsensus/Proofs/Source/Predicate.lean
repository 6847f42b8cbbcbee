/-
# The reader of predicates follows the grammar

A text that derives a predicate is read as this predicate: the reader takes away the
parentheses that enclose it, and divides it at the first connective or sign that the scan
finds outside parentheses, which is the one at the root of the derivation.  So or and and
nest to the right, and binds tighter than or, and a comparison belongs to the nearest
negation before it.
-/

import LossyConsensus.Proofs.Source.PredicateAtom

namespace LossyConsensus.Source

open LossyConsensus.Decimal LossyConsensus.Protocol LossyConsensus.Text

variable {limit : Option Nat} {v : Vocabulary} {word : String} {p : Predicate Float}
  {text small front back rest : List Char} {c : Char}

/-! ## Blanks around a predicate -/

theorem readPredicate_padded (h : Trimmed text) (hfront : Blanks front) (hback : Blanks back) :
    readPredicate v (front ++ text ++ back) = readPredicate v text := by
  rw [← readPredicate_trim, h.trim_eq hfront hback]

theorem readPredicate_before (h : Trimmed text) (hback : Blanks back) :
    readPredicate v (text ++ back) = readPredicate v text := by
  have hpadded := readPredicate_padded (v := v) h .nil hback
  rwa [List.nil_append] at hpadded

theorem readPredicate_after (h : Trimmed text) (hfront : Blanks front) :
    readPredicate v (front ++ text) = readPredicate v text := by
  have hpadded := readPredicate_padded (v := v) h hfront .nil
  rwa [List.append_nil] at hpadded

/-! ## Connectives -/

section Joined

variable {outer first second : PredicateLevel} {left joining right : List Char}

/-- The scan for a joining word finds the one after a predicate that it passes over. -/
theorem cutOutsideAnyCase?_joined
    (htext : IsSourceText (left ++ (front ++ ' ' :: (joining ++ ' ' :: (back ++ right)))))
    (hleft : Standing first left) (hfront : Blanks front) (hjoining : IsWordOf word joining)
    (hword : word.toList ∈ first.passed) :
    cutOutsideAnyCase? (spaced word.toList)
      (left ++ (front ++ ' ' :: (joining ++ ' ' :: (back ++ right)))) =
        some (left ++ front, back ++ right) := by
  have hjoins := passed_subset_joiningWords _ _ hword
  have hparts : left ++ (front ++ ' ' :: (joining ++ ' ' :: (back ++ right))) =
      left ++ front ++ ' ' :: (joining ++ [' '] ++ (back ++ right)) := by simp
  have hend : ∀ rest, atWordEnd (' ' :: rest) = true := fun _ => atWordEnd_cons (by decide)
  have hgap : Passes Char.toLower (spaced word.toList) front
      (' ' :: (joining ++ [' '] ++ (back ++ right))) := by
    apply passes_blanks hjoins hfront
    rw [frontWord_of_atWordEnd (hend _)]
    exact (letters_of_joiningWords _ hjoins).1.symm
  have hfirst : Passes Char.toLower (spaced word.toList) left
      (front ++ ' ' :: (joining ++ [' '] ++ (back ++ right))) :=
    hleft.passes _ hword (atWordEnd_blanks hfront (hend _))
  rw [cutOutsideAnyCase?, lower_eq htext, hparts]
  refine Passes.eq_some_of_map (by decide) (by decide) ?_ (hfirst.append hgap)
  rw [List.map_cons, List.map_append, hjoining]
  rfl

theorem cutOutsideAnyCase?_standing (htext : IsSourceText text) (h : Standing outer text)
    (hword : small ∈ outer.passed) : cutOutsideAnyCase? (spaced small) text = none := by
  have hpasses : Passes Char.toLower (spaced small) text [] := h.passes small hword rfl
  exact cutOutsideAnyCase?_eq_none htext.isWrittenText hpasses

end Joined

/-! ## What holds no connective -/

theorem readPredicate_unjoined (htext : IsSourceText text) (h : Standing .basic text)
    (hopen : isEnclosed text = false) : readPredicate v text = readUnjoined v text := by
  have hpassed : "or".toList ∈ PredicateLevel.basic.passed ∧
      "and".toList ∈ PredicateLevel.basic.passed := by decide
  have hor : cutOutsideAnyCase? " or ".toList text = none :=
    cutOutsideAnyCase?_standing htext h hpassed.1
  have hand : cutOutsideAnyCase? " and ".toList text = none :=
    cutOutsideAnyCase?_standing htext h hpassed.2
  rw [readPredicate_of_open h.trimmed hopen, readConnected_unjoined hor hand]

/-! ## Negations -/

theorem negated?_eq_none (htext : IsSourceText text) (h : frontWord text ≠ "not".toList) :
    negated? text = none := by
  apply negated?_eq_none_of_starts
  intro stop hstop hstarts
  have hends : ∀ stop ∈ [' ', '('], stop.isAlpha = false ∧ isWordChar stop = false := by decide
  rw [startsWith_iff, lower_eq htext] at hstarts
  exact h (frontWord_of_begins (by decide) (hends stop hstop) hstarts)

theorem negated?_eq_some {joining : List Char} (htext : IsSourceText (joining ++ c :: rest))
    (hjoining : IsWordOf "not" joining) (hc : c = ' ' ∨ c = '(') :
    negated? (joining ++ c :: rest) = some (c :: rest) := by
  have hlower : lower (joining ++ c :: rest) = "not".toList ++ c :: rest.map Char.toLower := by
    rw [lower_eq htext, List.map_append, hjoining, List.map_cons]
    rcases hc with rfl | rfl <;> rfl
  have hstarts : (startsWith "not ".toList (lower (joining ++ c :: rest)) ||
      startsWith "not(".toList (lower (joining ++ c :: rest))) = true := by
    rw [hlower]
    rcases hc with rfl | rfl <;> rfl
  have hlength : joining.length = 3 := by
    have hmap := congrArg List.length hjoining
    rwa [List.length_map] at hmap
  rw [negated?, if_pos hstarts, ← hlength, List.drop_left]

/-- What follows the word of negation is read as its operand. -/
theorem readPredicate_not {joining : List Char} (htext : IsSourceText (joining ++ c :: rest))
    (hjoining : IsWordOf "not" joining) (hc : c = ' ' ∨ c = '(')
    (hstanding : Standing .basic (joining ++ c :: rest))
    (hread : readPredicate v (c :: rest) = .ok p) :
    readPredicate v (joining ++ c :: rest) = .ok (.neg p) := by
  have hopen : isEnclosed (joining ++ c :: rest) = false := by
    obtain ⟨d, more, rfl, hd⟩ := hjoining.front (by decide)
    have hround : d ≠ '(' := by
      rintro rfl
      exact absurd hd (by decide)
    simp [isEnclosed, hround]
  rw [readPredicate_unjoined htext hstanding hopen,
    readUnjoined_neg (negated?_eq_some htext hjoining hc) hread]

/-! ## Comparisons -/

section Compared

variable {left right : List Char} {l r : Expr Float} {op : Relation}
  (hleft : Derives limit .sum left l) (hl : Expr.AvoidsWords l) (hfront : Blanks front)
  (hback : Blanks back) (hright : Derives limit .sum right r) (hr : Expr.AvoidsWords r)
include hleft hl hfront

/-- The scan for a sign reaches the sign that stands between two expressions. -/
theorem passes_before_sign {sign : Relation} (rest : List Char) :
    Passes id sign.sign.toList (left ++ front) (op.sign.toList ++ rest) := by
  have hscan := passesTokens_sign sign
  have hgap : Passes id sign.sign.toList front (op.sign.toList ++ rest) := by
    apply hscan.blanks hfront
    cases op <;> exact frontWord_of_front (by decide)
  exact (hleft.passes hscan hl (atWordEnd_sign hfront rest)).append hgap

theorem cutOutside?_sign (rest : List Char) :
    cutOutside? op.sign.toList (left ++ (front ++ (op.sign.toList ++ rest))) =
      some (left ++ front, rest) := by
  have hbefore : Passes id op.sign.toList (left ++ front) (op.sign.toList ++ rest) :=
    passes_before_sign hleft hl hfront rest
  obtain ⟨first, more, hsign, hfirst⟩ := exists_of_sign op
  have hplain : ∀ c ∈ "<>=!".toList, isOpening c = false ∧ isClosing c = false := by decide
  obtain ⟨hopening, hclosing⟩ := hplain first hfirst
  rw [hsign] at hbefore ⊢
  have hcut := hbefore.eq_some hopening hclosing (List.map_id _)
  rwa [List.map_id, List.append_assoc] at hcut

omit hleft hl hfront in
/-- The scan for a sign passes over one that does not hold it. -/
theorem passes_other_sign {sign : Relation} (hsign : ¬ sign.sign.toList <:+: op.sign.toList)
    (hrest : ∀ c ∈ rest.head?, c ∉ signChars) : Passes id sign.sign.toList op.sign.toList rest := by
  have hchars : ∀ op : Relation, ∀ c ∈ op.sign.toList, c ∈ signChars := by
    intro op
    cases op <;> decide
  have hplain : ∀ c ∈ signChars, isOpening c = false ∧ isClosing c = false := by decide
  refine .of_not_begins (fun c hc => hplain c (hchars op c hc)) ?_
  intro suffix hsuffix hnil hbegins
  rw [List.map_id] at hbegins
  rcases List.prefix_or_prefix_of_prefix hbegins (List.prefix_append suffix rest)
    with hinside | ⟨more, hmore⟩
  · exact hsign (hinside.isInfix.trans hsuffix.isInfix)
  · -- the sign would go on where no sign stands
    cases more with
    | nil =>
        rw [List.append_nil] at hmore
        exact hsign (hmore ▸ hsuffix.isInfix)
    | cons d more =>
        rw [← hmore, List.prefix_append_right_inj] at hbegins
        obtain ⟨tail, rfl⟩ := hbegins
        exact hrest d rfl (hchars sign d (by rw [← hmore]; simp))

include hback hright hr in
theorem cutOutside?_other {sign : Relation} (hsign : ¬ sign.sign.toList <:+: op.sign.toList) :
    cutOutside? sign.sign.toList (left ++ (front ++ (op.sign.toList ++ (back ++ right)))) =
      none := by
  have hscan := passesTokens_sign sign
  have hhead : ∀ c ∈ (back ++ right ++ []).head?, c ∉ signChars := by
    have hblank : ∀ c ∈ signChars, isBlank c = false ∧ isTokenChar c = false ∧ c ≠ '(' := by decide
    intro c hc hmem
    cases back with
    | cons d back =>
        obtain rfl : d = c := Option.some.inj hc
        exact absurd hback.head (by rw [(hblank d hmem).1]; exact Bool.false_ne_true)
    | nil =>
        obtain ⟨d, more, rfl, hd⟩ := hright.front
        obtain rfl : d = c := Option.some.inj hc
        rcases hd with hd | hd
        · exact absurd hd (by rw [(hblank d hmem).2.1]; exact Bool.false_ne_true)
        · exact (hblank d hmem).2.2 hd
  have hother : Passes id sign.sign.toList op.sign.toList (back ++ right ++ []) :=
    passes_other_sign hsign hhead
  have hgap : Passes id sign.sign.toList back (right ++ []) :=
    hscan.blanks hback (hright.frontWord_not_mem hr rfl)
  have hbefore : Passes id sign.sign.toList (left ++ front)
      (op.sign.toList ++ (back ++ right) ++ []) := by
    rw [List.append_nil]
    exact passes_before_sign hleft hl hfront (back ++ right)
  have hall : Passes id sign.sign.toList
      (left ++ front ++ (op.sign.toList ++ (back ++ right))) [] :=
    hbefore.append (hother.append (hgap.append (hright.passes hscan hr rfl)))
  have hnone := hall.eq_none
  rwa [List.map_id, List.append_assoc] at hnone

include hback hright hr in
/-- The comparison that stands between two expressions is found. -/
theorem comparison?_eq_some :
    comparison? (left ++ (front ++ (op.sign.toList ++ (back ++ right)))) =
      some (left ++ front, op, back ++ right) := by
  exact comparison?_eq_some_of_cut (cutOutside?_sign hleft hl hfront (back ++ right))
    fun _ hsign => cutOutside?_other hleft hl hfront hback hright hr hsign

end Compared

/-- An expression between blanks is read as the expression that it derives. -/
theorem readExpr_padded {e : Expr Float} (h : Derives (some digitLimit) .sum text e)
    (htext : IsSourceText text) (hfront : Blanks front) (hback : Blanks back) :
    readExpr {} (front ++ text ++ back) = .ok e := by
  rw [← readExpr_trim, h.placed.trimmed.trim_eq hfront hback, readExpr_of_derives htext h]

theorem readPredicate_comparison {left right : List Char} {l r : Expr Float} {op : Relation}
    (hleft : Derives (some digitLimit) .sum left l) (hl : Expr.AvoidsWords l)
    (hfront : Blanks front) (hback : Blanks back)
    (hright : Derives (some digitLimit) .sum right r) (hr : Expr.AvoidsWords r)
    (htext : IsSourceText (left ++ (front ++ (op.sign.toList ++ (back ++ right))))) :
    readPredicate {} (left ++ (front ++ (op.sign.toList ++ (back ++ right)))) =
      .ok (.compare op l r) := by
  have hstanding : Standing .basic (left ++ (front ++ (op.sign.toList ++ (back ++ right)))) :=
    standing_comparison hleft hl hfront hback hright hr
  have hopen : isEnclosed (left ++ (front ++ (op.sign.toList ++ (back ++ right)))) = false := by
    apply hleft.placed.balanced.isEnclosed_append hleft.placed.ne_nil
    cases op <;> simp [Relation.sign]
  have hnegated : negated? (left ++ (front ++ (op.sign.toList ++ (back ++ right)))) = none := by
    apply negated?_eq_none htext
    intro hsame
    have hend : atWordEnd (front ++ (op.sign.toList ++ (back ++ right))) = true :=
      atWordEnd_sign hfront (back ++ right)
    have hword := hleft.frontWord_not_mem hl hend
    exact hword (hsame ▸ (by decide))
  simp only [IsSourceText.append_iff] at htext
  have hreadLeft : readExpr {} (left ++ front) = .ok l := by
    have hread := readExpr_padded hleft htext.1 .nil hfront
    rwa [List.nil_append] at hread
  have hreadRight : readExpr {} (back ++ right) = .ok r := by
    have hread := readExpr_padded hright htext.2.2.2.2 hback .nil
    rwa [List.append_nil] at hread
  rw [readPredicate_unjoined (by simp only [IsSourceText.append_iff]; exact htext) hstanding hopen,
    readUnjoined_compare hnegated (comparison?_eq_some hleft hl hfront hback hright hr)
      hreadLeft hreadRight]

/-! ## Derived predicates -/

/-- What is an atom is left to the reader of atoms. -/
theorem IsPredicateAtom.readPredicate_eq (h : IsPredicateAtom limit text p)
    (htext : IsSourceText text) : readPredicate {} text = readAtom {} text := by
  have hcomparison : comparison? text = none :=
    comparison?_eq_none_of_passes fun op => h.passes (passesTokens_sign op) rfl
  have hstanding := h.standing
  obtain ⟨c, rest, rfl, hc⟩ := h.front
  have hopen : isEnclosed (c :: rest) = false := by
    have hround : c ≠ '(' := by
      rintro rfl
      exact absurd hc (by decide)
    simp [isEnclosed, hround]
  have hnegated : negated? (c :: rest) = none := by
    have hother : ∀ small ∈ ['r', 's'], small ∉ ['a', 'o', 'n', 'i'] := by decide
    apply negated?_eq_none htext
    intro hsame
    have hword : frontWord (c :: rest) ∉ conditionWords := frontWord_of_front (hother _ hc)
    rw [hsame] at hword
    exact hword (by decide)
  rw [readPredicate_unjoined htext hstanding hopen, readUnjoined_atom hnegated hcomparison]

/-- A predicate in parentheses, with blanks around it, is read as the predicate. -/
theorem readPredicate_round {level : PredicateLevel} (h : Standing level text)
    (hfront : Blanks front) (hback : Blanks back) :
    readPredicate v (enclosed (front ++ text ++ back)) = readPredicate v text := by
  rw [readPredicate_enclosed (balanced_padded hfront h.balanced hback),
    readPredicate_padded h.trimmed hfront hback]

section Joined

variable {outer first second : PredicateLevel} {left joining right : List Char}
  {l r : Predicate Float}

theorem IsSourceText.of_joined
    (h : IsSourceText (left ++ (front ++ ' ' :: (joining ++ ' ' :: (back ++ right))))) :
    IsSourceText left ∧ IsSourceText right := by
  simp only [IsSourceText.append_iff, IsSourceText.cons_iff] at h
  exact ⟨h.1, h.2.2.2.2.2.2⟩

variable (htext : IsSourceText (left ++ (front ++ ' ' :: (joining ++ ' ' :: (back ++ right)))))
  (hleft : Standing first left) (hfront : Blanks front) (hback : Blanks back)
  (hright : Standing second right)
  (hstanding : Standing outer (left ++ (front ++ ' ' :: (joining ++ ' ' :: (back ++ right)))))
  (hreadLeft : readPredicate {} left = .ok l) (hreadRight : readPredicate {} right = .ok r)
include htext hleft hfront hback hright hstanding hreadLeft hreadRight

theorem readPredicate_or (hor : IsWordOf "or" joining) (hpassed : "or".toList ∈ first.passed) :
    readPredicate {} (left ++ (front ++ ' ' :: (joining ++ ' ' :: (back ++ right)))) =
      .ok (.disj l r) := by
  have hcut : cutOutsideAnyCase? " or ".toList
      (left ++ (front ++ ' ' :: (joining ++ ' ' :: (back ++ right)))) =
        some (left ++ front, back ++ right) :=
    cutOutsideAnyCase?_joined htext hleft hfront hor hpassed
  have hopen : isEnclosed (left ++ (front ++ ' ' :: (joining ++ ' ' :: (back ++ right)))) = false :=
    hleft.balanced.isEnclosed_append hleft.trimmed.ne_nil (by simp)
  rw [readPredicate_of_open hstanding.trimmed hopen]
  exact readConnected_disj hcut ((readPredicate_before hleft.trimmed hfront).trans hreadLeft)
    ((readPredicate_after hright.trimmed hback).trans hreadRight)

theorem readPredicate_and (hand : IsWordOf "and" joining) (hpassed : "and".toList ∈ first.passed)
    (hor : "or".toList ∈ outer.passed) :
    readPredicate {} (left ++ (front ++ ' ' :: (joining ++ ' ' :: (back ++ right)))) =
      .ok (.conj l r) := by
  have hnone : cutOutsideAnyCase? " or ".toList
      (left ++ (front ++ ' ' :: (joining ++ ' ' :: (back ++ right)))) = none :=
    cutOutsideAnyCase?_standing htext hstanding hor
  have hcut : cutOutsideAnyCase? " and ".toList
      (left ++ (front ++ ' ' :: (joining ++ ' ' :: (back ++ right)))) =
        some (left ++ front, back ++ right) :=
    cutOutsideAnyCase?_joined htext hleft hfront hand hpassed
  have hopen : isEnclosed (left ++ (front ++ ' ' :: (joining ++ ' ' :: (back ++ right)))) = false :=
    hleft.balanced.isEnclosed_append hleft.trimmed.ne_nil (by simp)
  rw [readPredicate_of_open hstanding.trimmed hopen]
  exact readConnected_conj hnone hcut ((readPredicate_before hleft.trimmed hfront).trans hreadLeft)
    ((readPredicate_after hright.trimmed hback).trans hreadRight)

end Joined

/-- What parentheses and blanks enclose in a source text is a source text. -/
theorem IsSourceText.of_round (h : IsSourceText (enclosed (front ++ text ++ back))) :
    IsSourceText text := by
  have hinner := IsSourceText.of_enclosed h
  exact (IsSourceText.append_iff.mp (IsSourceText.append_iff.mp hinner).1).2

/-- A text that derives a predicate is read as this predicate. -/
theorem DerivesPredicate.readPredicate_eq {level : PredicateLevel}
    (h : DerivesPredicate (some digitLimit) level text p) (htext : IsSourceText text) :
    readPredicate {} text = .ok p := by
  -- By induction on the derivation.  Its root is what the reader finds first, since `Standing`
  -- of a level keeps the connectives of the looser levels out of the operands.
  induction h with
  | atom hatom => rw [hatom.readPredicate_eq htext, hatom.readAtom_eq htext]
  | compare hleft hl hfront hback hright hr =>
      exact readPredicate_comparison hleft hl hfront hback hright hr htext
  | negated hword hgap hoperand ih =>
      have hread := ih (IsSourceText.append_iff.mp (IsSourceText.cons_iff.mp
        (IsSourceText.append_iff.mp htext).2).2).2
      apply readPredicate_not htext hword (.inl rfl)
        (standing_negated hword hgap hoperand.standing)
      rw [← List.cons_append, readPredicate_after hoperand.standing.trimmed
        (blanks_cons_space hgap), hread]
  | negatedEnclosed hword hfront hbody hback ih =>
      have hread := ih (IsSourceText.append_iff.mp htext).2.of_round
      apply readPredicate_not htext hword (.inr rfl)
        (standing_negatedEnclosed hword (balanced_padded hfront hbody.standing.balanced hback))
      exact (readPredicate_round hbody.standing hfront hback).trans hread
  | enclosed hfront hbody hback ih =>
      rw [readPredicate_round hbody.standing hfront hback, ih htext.of_round]
  | ofBasic _ ih => exact ih htext
  | ofConjunction _ ih => exact ih htext
  | conj hleft hfront hword hback hright ihleft ihright =>
      have hstanding := (DerivesPredicate.conj hleft hfront hword hback hright).standing
      obtain ⟨htextLeft, htextRight⟩ := htext.of_joined
      exact readPredicate_and htext hleft.standing hfront hback hright.standing hstanding
        (ihleft htextLeft) (ihright htextRight) hword (by decide) (by decide)
  | disj hleft hfront hword hback hright ihleft ihright =>
      have hstanding := (DerivesPredicate.disj hleft hfront hword hback hright).standing
      obtain ⟨htextLeft, htextRight⟩ := htext.of_joined
      exact readPredicate_or htext hleft.standing hfront hback hright.standing hstanding
        (ihleft htextLeft) (ihright htextRight) hword (by decide)

end LossyConsensus.Source
