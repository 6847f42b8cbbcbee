/-
# Scans through conditions

The reader of predicates looks for connectives and signs from the front of a text.  It
passes over expressions: outside their parentheses a blank stands before a token, no
token is spelt like a connective, and none holds a sign of comparison.
-/

import LossyConsensus.Proofs.Source.PredicateGrammar
import LossyConsensus.Proofs.Source.WrittenPredicate

namespace LossyConsensus.Source

open LossyConsensus.Decimal LossyConsensus.Protocol LossyConsensus.Text

variable {limit : Option Nat} {level : Level} {word : String} {e : Expr Float}
  {text run rest gap small head argument body following : List Char} {c stop : Char}
  {shown : Char → Char}

/-! ## The word in front of a text -/

/-- The word in front of a text, in small letters. -/
def frontWord (text : List Char) : List Char :=
  (text.takeWhile isWordChar).map Char.toLower

theorem frontWord_append (hrun : ∀ c ∈ run, isWordChar c = true)
    (hrest : atWordEnd rest = true) : frontWord (run ++ rest) = run.map Char.toLower := by
  rw [frontWord, takeWhile_run hrun (atWordEnd_iff.mp hrest)]

theorem frontWord_of_atWordEnd (h : atWordEnd text = true) : frontWord text = [] := by
  have hnone : ∀ c ∈ ([] : List Char), isWordChar c = true := by simp
  exact frontWord_append hnone h

theorem atWordEnd_cons (hc : isWordChar c = false) : atWordEnd (c :: text) = true := by
  simp [atWordEnd, hc]

theorem isWordChar_of_isBlank (hc : isBlank c = true) : isWordChar c = false := by
  simpa using forall_isBlank (fun c => !isWordChar c) (by decide +kernel) hc

/-- A word ends before blanks, if it ends before what follows them. -/
theorem atWordEnd_blanks (hgap : Blanks gap) (h : atWordEnd following = true) :
    atWordEnd (gap ++ following) = true := by
  cases gap with
  | nil => exact h
  | cons c gap => exact atWordEnd_cons (isWordChar_of_isBlank hgap.head)

/-- A text that begins with small letters and the end of a word has these letters in
front. -/
theorem frontWord_of_begins (hsmall : ∀ c ∈ small, c.isAlpha = true)
    (hstop : stop.isAlpha = false ∧ isWordChar stop = false)
    (h : small ++ [stop] <+: text.map Char.toLower) : frontWord text = small := by
  obtain ⟨begin, rest, rfl, hbegin⟩ := exists_of_prefix_map h
  obtain ⟨run, last, rfl, rfl, hlast⟩ := List.map_eq_append_iff.mp hbegin
  obtain ⟨d, none, rfl, hd, hnone⟩ := List.map_eq_cons_iff.mp hlast
  obtain rfl := List.map_eq_nil_iff.mp hnone
  obtain rfl := eq_of_toLower_eq hstop.1 hd
  rw [List.append_assoc]
  apply frontWord_append
  · intro c hc
    exact isWordChar_of_alpha (isAlpha_of_toLower (hsmall _ (List.mem_map_of_mem hc)))
  · exact atWordEnd_cons hstop.2

/-- The word in front of a text begins with its first character, if there is any. -/
theorem frontWord_cons_eq (c : Char) (text : List Char) :
    frontWord (c :: text) = [] ∨ ∃ more, frontWord (c :: text) = c.toLower :: more := by
  by_cases hc : isWordChar c = true
  · exact .inr ⟨_, by rw [frontWord, List.takeWhile_cons_of_pos hc, List.map_cons]⟩
  · exact .inl (frontWord_of_atWordEnd (atWordEnd_cons (by simpa using hc)))

/-- No word of conditions stands in front of a text with another first letter. -/
theorem frontWord_of_front (hc : c.toLower ∉ ['a', 'o', 'n', 'i']) :
    frontWord (c :: text) ∉ conditionWords := by
  intro hmem
  have hfront : ∀ word ∈ conditionWords,
      word.head?.any (['a', 'o', 'n', 'i'].contains ·) = true := by decide
  have hword := hfront _ hmem
  rcases frontWord_cons_eq c text with hnil | ⟨more, hmore⟩
  · rw [hnil] at hword
    cases hword
  · rw [hmore, List.head?_cons, Option.any_some, List.contains_iff_mem] at hword
    exact hc hword

theorem frontWord_of_not_alpha (hc : c.isAlpha = false) :
    frontWord (c :: text) ∉ conditionWords := by
  apply frontWord_of_front
  rw [toLower_eq_self (isUpper_of_isAlpha hc)]
  have hletters : ∀ c ∈ ['a', 'o', 'n', 'i'], c.isAlpha = true := by decide
  intro hmem
  rw [hletters c hmem] at hc
  cases hc

theorem isWordChar_of_isWordOf (h : IsWordOf word head)
    (hword : ∀ c ∈ word.toList, c.isAlpha = true ∨ c = '_') : ∀ c ∈ head, isWordChar c = true := by
  intro c hc
  have hmem : c.toLower ∈ word.toList := h ▸ List.mem_map_of_mem hc
  rcases hword _ hmem with halpha | hunderscore
  · exact isWordChar_of_alpha (isAlpha_of_toLower halpha)
  · rw [eq_of_toLower_eq (by decide) hunderscore]
    decide

theorem IsWordOf.frontWord_eq (h : IsWordOf word head)
    (hword : ∀ c ∈ word.toList, c.isAlpha = true ∨ c = '_')
    (hfollowing : atWordEnd following = true) : frontWord (head ++ following) = word.toList := by
  rw [frontWord_append (isWordChar_of_isWordOf h hword) hfollowing]
  exact h

/-! ## Scans -/

/-- A scan passes over the tokens of expressions, over parentheses, and over blanks before
what no word of conditions begins. -/
structure PassesTokens (shown : Char → Char) (word : List Char) : Prop where
  token : ∀ {text following : List Char}, Balanced text → (∀ c ∈ text, isTokenChar c = true) →
    Passes shown word text following
  round : ∀ {body following : List Char}, Balanced body →
    Passes shown word (enclosed body) following
  blanks : ∀ {gap following : List Char}, Blanks gap → frontWord following ∉ conditionWords →
    Passes shown word gap following

/-- A word between single spaces. -/
def spaced (small : List Char) : List Char :=
  ' ' :: (small ++ [' '])

/-- The words that join two predicates. -/
def joiningWords : List (List Char) :=
  ["or".toList, "and".toList]

theorem letters_of_joiningWords : ∀ small ∈ joiningWords,
    small ≠ [] ∧ (∀ c ∈ small, c.isAlpha = true) ∧ small ∈ conditionWords := by
  decide

section Joining

variable (hsmall : small ∈ joiningWords)
include hsmall

/-- The scan for a joining word passes over a character before another word. -/
theorem passes_char (hopening : isOpening c = false) (hclosing : isClosing c = false)
    (h : frontWord following ≠ small) : Passes Char.toLower (spaced small) [c] following := by
  apply Passes.char hopening hclosing
  intro hbegins
  rw [spaced, List.map_cons, List.cons_prefix_cons] at hbegins
  exact h (frontWord_of_begins (letters_of_joiningWords small hsmall).2.1 (by decide) hbegins.2)

theorem passes_blanks (hgap : Blanks gap) (h : frontWord following ≠ small) :
    Passes Char.toLower (spaced small) gap following := by
  induction gap with
  | nil => exact .nil
  | cons c gap ih =>
      have hplain := forall_isBlank (fun c => !isOpening c && !isClosing c) (by decide) hgap.head
      simp only [Bool.and_eq_true, Bool.not_eq_true'] at hplain
      have hnext : frontWord (gap ++ following) ≠ small := by
        cases gap with
        | nil => exact h
        | cons d gap =>
            have hend : atWordEnd (d :: (gap ++ following)) = true :=
              atWordEnd_cons (isWordChar_of_isBlank hgap.tail.head)
            rw [List.cons_append, frontWord_of_atWordEnd hend]
            exact (letters_of_joiningWords small hsmall).1.symm
      have hfirst : Passes Char.toLower (spaced small) [c] (gap ++ following) :=
        passes_char hsmall hplain.1 hplain.2 hnext
      exact hfirst.append (ih hgap.tail)

theorem passesTokens_joining : PassesTokens Char.toLower (spaced small) where
  token hbalanced htoken := .of_balanced hbalanced fun c hc => toLower_ne_space (htoken c hc)
  round hbody := .round hbody
  blanks hgap h := passes_blanks hsmall hgap fun hsame =>
    h (hsame ▸ (letters_of_joiningWords small hsmall).2.2)

end Joining

/-- The characters of the signs of relations. -/
def signChars : List Char :=
  "<>=!".toList

theorem passesTokens_sign (op : Relation) : PassesTokens id op.sign.toList := by
  obtain ⟨first, rest, hsign, hfirst⟩ := exists_of_sign op
  rw [hsign]
  have hnone : ∀ c ∈ signChars, isTokenChar c = false ∧ isBlank c = false := by decide
  constructor
  · intro text following hbalanced htoken
    refine .of_balanced hbalanced fun c hc hsame => ?_
    obtain rfl : c = first := hsame
    exact absurd (htoken c hc) (by rw [(hnone c hfirst).1]; exact Bool.false_ne_true)
  · exact fun hbody => .round hbody
  · intro gap following hgap _
    refine .of_balanced (.of_blanks hgap) fun c hc hsame => ?_
    obtain rfl : c = first := hsame
    exact absurd (hgap c hc) (by rw [(hnone c hfirst).2]; exact Bool.false_ne_true)

/-! ## Expressions -/

theorem IsCall.frontWord_eq (h : IsCall word text argument)
    (hword : ∀ c ∈ word.toList, c.isAlpha = true ∨ c = '_') :
    frontWord (text ++ following) = word.toList := by
  cases h with
  | @intro head gap argument hhead hgap =>
      have hend : atWordEnd (gap ++ '(' :: (argument ++ [')']) ++ following) = true := by
        rw [List.append_assoc]
        exact atWordEnd_blanks hgap (atWordEnd_cons (by decide))
      rw [List.append_assoc, hhead.frontWord_eq hword hend]

theorem IsAtom.frontWord_not_mem (h : IsAtom limit text e) (hwords : Expr.AvoidsWords e)
    (hfollowing : atWordEnd following = true) : frontWord (text ++ following) ∉ conditionWords := by
  cases h with
  | @aggregate how _ _ _ _ _ hcall _ _ _ =>
      rw [hcall.frontWord_eq (by cases how <;> decide)]
      cases how <;> decide
  | valueFrom hcall _ _ _ =>
      rw [hcall.frontWord_eq (by decide)]
      decide
  | other => exact frontWord_of_front (by decide)
  | otherOf => exact frontWord_of_front (by decide)
  | own hown =>
      rcases ownWords_cases hown with rfl | rfl | rfl | rfl | rfl
      all_goals exact frontWord_of_front (by decide)
  | parameter hidentifier =>
      have hchars : ∀ c ∈ text, isWordChar c = true := by
        rcases exists_of_isIdentifier hidentifier with ⟨first, more, rfl, hfirst, hmore⟩
        intro c hc
        rcases List.mem_cons.mp hc with rfl | hc
        · exact isWordChar_of_word (word_of_letter hfirst)
        · exact isWordChar_of_word (hmore c hc)
      rw [frontWord_append hchars hfollowing]
      simpa only [Expr.AvoidsWords, String.toList_ofList] using hwords

theorem isWordChar_sign (op : Operator) : isWordChar op.sign = false := by
  cases op <;> decide

/-- What holds of the word in front of a first operand holds of that in front of an
operation. -/
theorem frontWord_operation {left front back right : List Char} (op : Operator)
    (hfront : Blanks front)
    (hleft : ∀ {following : List Char}, atWordEnd following = true →
      frontWord (left ++ following) ∉ conditionWords) :
    frontWord (left ++ front ++ op.sign :: (back ++ right) ++ following) ∉ conditionWords := by
  have hend : atWordEnd (front ++ op.sign :: (back ++ right ++ following)) = true :=
    atWordEnd_blanks hfront (atWordEnd_cons (isWordChar_sign op))
  have hparts : left ++ front ++ op.sign :: (back ++ right) ++ following =
      left ++ (front ++ op.sign :: (back ++ right ++ following)) := by simp
  rw [hparts]
  exact hleft hend

/-- No word of conditions stands in front of an expression. -/
theorem Derives.frontWord_not_mem (h : Derives limit level text e) (hwords : Expr.AvoidsWords e)
    (hfollowing : atWordEnd following = true) : frontWord (text ++ following) ∉ conditionWords := by
  induction h generalizing following with
  | numeral hform _ =>
      obtain ⟨c, rest, rfl, hc⟩ := hform.front
      rcases hc with hc | rfl | rfl
      · exact frontWord_of_not_alpha (isAlpha_of_isDigit hc)
      · exact frontWord_of_front (by decide)
      · exact frontWord_of_front (by decide)
  | negated => exact frontWord_of_front (by decide)
  | atom hatom => exact hatom.frontWord_not_mem hwords hfollowing
  | enclosed => exact frontWord_of_front (by decide)
  | ofFactor _ ih => exact ih hwords hfollowing
  | ofProduct _ ih => exact ih hwords hfollowing
  | product _ _ hfront _ _ ihleft _ =>
      exact frontWord_operation _ hfront fun hend => ihleft hwords.1 hend
  | sum _ _ hfront _ _ ihleft _ =>
      exact frontWord_operation _ hfront fun hend => ihleft hwords.1 hend

/-- An expression begins with a token or a parenthesis. -/
theorem Derives.front (h : Derives limit level text e) :
    ∃ c rest, text = c :: rest ∧ (isTokenChar c = true ∨ c = '(') := by
  induction h with
  | numeral hform _ =>
      obtain ⟨c, rest, rfl, _⟩ := hform.front
      exact ⟨c, rest, rfl, .inl (isTokenChar_of_numeral hform c List.mem_cons_self)⟩
  | negated => exact ⟨'-', _, rfl, .inl (by decide)⟩
  | atom hatom =>
      obtain ⟨c, rest, rfl, hc⟩ := hatom.front
      exact ⟨c, rest, rfl, .inl (isTokenChar_of_word (word_of_letter hc))⟩
  | enclosed => exact ⟨'(', _, rfl, .inr rfl⟩
  | ofFactor _ ih => exact ih
  | ofProduct _ ih => exact ih
  | product _ _ _ _ _ ihleft _ =>
      obtain ⟨c, rest, rfl, hc⟩ := ihleft
      exact ⟨c, _, by rw [List.append_assoc, List.cons_append], hc⟩
  | sum _ _ _ _ _ ihleft _ =>
      obtain ⟨c, rest, rfl, hc⟩ := ihleft
      exact ⟨c, _, by rw [List.append_assoc, List.cons_append], hc⟩

section Passing

variable {scanned : List Char} (hscan : PassesTokens shown scanned)
include hscan

theorem passes_word (h : IsWordOf word head)
    (hword : ∀ c ∈ word.toList, c.isAlpha = true ∨ c = '_') :
    Passes shown scanned head following := by
  have hchars : ∀ c ∈ head, c.isAlpha = true ∨ c = '_' := by
    intro c hc
    have hmem : c.toLower ∈ word.toList := h ▸ List.mem_map_of_mem hc
    rcases hword _ hmem with halpha | hunderscore
    · exact .inl (isAlpha_of_toLower halpha)
    · exact .inr (eq_of_toLower_eq (by decide) hunderscore)
  apply hscan.token
  · exact balanced_word fun c hc => not_mem_marks_of_word (word_of_letter (hchars c hc))
  · exact fun c hc => isTokenChar_of_word (word_of_letter (hchars c hc))

/-- A scan passes over blanks and a text in parentheses. -/
theorem passes_argument (hgap : Blanks gap) (hargument : Balanced argument) :
    Passes shown scanned (gap ++ '(' :: (argument ++ [')'])) following := by
  have hblanks : Passes shown scanned gap ('(' :: (argument ++ [')']) ++ following) :=
    hscan.blanks hgap (frontWord_of_front (by decide))
  exact hblanks.append (hscan.round hargument)

theorem passes_call (h : IsCall word text argument)
    (hword : ∀ c ∈ word.toList, c.isAlpha = true ∨ c = '_') (hargument : Balanced argument) :
    Passes shown scanned text following := by
  cases h with
  | intro hhead hgap =>
      exact (passes_word hscan hhead hword).append (passes_argument hscan hgap hargument)

theorem IsAtom.passes (h : IsAtom limit text e) : Passes shown scanned text following := by
  cases h with
  | @aggregate how _ _ _ _ _ hcall hfront hback hsource =>
      refine passes_call hscan hcall (by cases how <;> decide) ?_
      exact ((Balanced.of_blanks hfront).append hsource.inert.balanced).append (.of_blanks hback)
  | valueFrom hcall hfront hback hid =>
      refine passes_call hscan hcall (by decide) ?_
      exact ((Balanced.of_blanks hfront).append (Inert.of_number hid.number).balanced).append
        (.of_blanks hback)
  | other => exact hscan.token (balanced_word (by decide)) (by decide)
  | @otherOf gap front back hgap hfront hback =>
      have hname : Balanced ['x'] := .plain rfl rfl
      have hargument : Balanced (front ++ ['x'] ++ back) :=
        ((Balanced.of_blanks hfront).append hname).append (.of_blanks hback)
      have hword : Passes shown scanned "received_other".toList
          (gap ++ '(' :: (front ++ ['x'] ++ back ++ [')']) ++ following) :=
        hscan.token (balanced_word (by decide)) (by decide)
      exact hword.append (passes_argument hscan hgap hargument)
  | own hown =>
      have htoken : ∀ text ∈ ownWords, ∀ c ∈ text, isTokenChar c = true := by decide
      exact hscan.token (inert_of_mem_ownWords hown).balanced (htoken text hown)
  | parameter hidentifier =>
      exact hscan.token (balanced_word (plain_of_isIdentifier hidentifier))
        (isTokenChar_of_identifier hidentifier)

/-- A scan passes over the operator and the second operand after a first operand. -/
theorem passes_operation {left front back right : List Char} (op : Operator) (hfront : Blanks front)
    (hback : Blanks back)
    (hleft : ∀ {following : List Char}, atWordEnd following = true →
      Passes shown scanned left following)
    (hright : Passes shown scanned right following)
    (hword : frontWord (right ++ following) ∉ conditionWords) :
    Passes shown scanned (left ++ front ++ op.sign :: (back ++ right)) following := by
  have hsign : isWordChar op.sign = false := isWordChar_sign op
  have hparts : left ++ front ++ op.sign :: (back ++ right) =
      left ++ (front ++ ([op.sign] ++ (back ++ right))) := by simp
  have hgap : Passes shown scanned front ([op.sign] ++ (back ++ right) ++ following) := by
    refine hscan.blanks hfront (frontWord_of_not_alpha ?_)
    cases op <;> decide
  have hop : Passes shown scanned [op.sign] (back ++ right ++ following) := by
    refine hscan.token (balanced_sign op) ?_
    cases op <;> decide
  have hblanks : Passes shown scanned back (right ++ following) := hscan.blanks hback hword
  have hend : atWordEnd (front ++ ([op.sign] ++ (back ++ right)) ++ following) = true := by
    rw [List.append_assoc]
    exact atWordEnd_blanks hfront (atWordEnd_cons hsign)
  rw [hparts]
  exact (hleft hend).append (hgap.append (hop.append (hblanks.append hright)))

/-- A scan for a connective or a sign passes over every expression. -/
theorem Derives.passes (h : Derives limit level text e) (hwords : Expr.AvoidsWords e)
    (hfollowing : atWordEnd following = true) : Passes shown scanned text following := by
  induction h generalizing following with
  | numeral hform _ =>
      exact hscan.token (balanced_numeral hform) (isTokenChar_of_numeral hform)
  | @negated gap operand _ hgap hoperand _ ih =>
      have hminus : Passes shown scanned ['-'] (gap ++ operand ++ following) :=
        hscan.token (.plain rfl rfl) (by decide)
      have hblanks : Passes shown scanned gap (operand ++ following) :=
        hscan.blanks hgap (hoperand.frontWord_not_mem hwords.2 hfollowing)
      exact hminus.append (hblanks.append (ih hwords.2 hfollowing))
  | atom hatom => exact hatom.passes hscan
  | enclosed hfront hbody hback =>
      exact hscan.round (((Balanced.of_blanks hfront).append hbody.placed.balanced).append
        (.of_blanks hback))
  | ofFactor _ ih => exact ih hwords hfollowing
  | ofProduct _ ih => exact ih hwords hfollowing
  | product _ _ hfront hback hright ihleft ihright =>
      exact passes_operation hscan _ hfront hback (fun hend => ihleft hwords.1 hend)
        (ihright hwords.2 hfollowing) (hright.frontWord_not_mem hwords.2 hfollowing)
  | sum _ _ hfront hback hright ihleft ihright =>
      exact passes_operation hscan _ hfront hback (fun hend => ihleft hwords.1 hend)
        (ihright hwords.2 hfollowing) (hright.frontWord_not_mem hwords.2 hfollowing)

end Passing

end LossyConsensus.Source
