/-
# Tokens in place

What the scan for operators meets in a numeral or an atom.  An atom contains no
operator and its brackets match.  The signs inside a numeral join nothing: one
stands where an operand is awaited, the other after the mark of an exponent.  At
the end of either an operand is complete, so an operator that follows joins.
-/

import LossyConsensus.Proofs.Source.Grammar
import LossyConsensus.Proofs.Text.Bracket

namespace LossyConsensus.Source

open LossyConsensus.Decimal LossyConsensus.Protocol LossyConsensus.Text

variable {limit : Option Nat} {word : String} {text first second argument before : List Char}
  {e : Expr Float} {how : Aggregation} {c : Char}

/-! ## Texts without operators -/

/-- The brackets and the operators. -/
def marks : List Char :=
  ['(', ')', '[', ']', '+', '-', '*', '/']

/-- A text with matched brackets and without operators. -/
structure Inert (text : List Char) : Prop where
  balanced : Balanced text
  free : ∀ c ∈ text, c ∉ ['+', '-', '*', '/']

theorem mem_marks (h : isOpening c = true ∨ isClosing c = true ∨ c ∈ ['+', '-', '*', '/']) :
    c ∈ marks := by
  simp only [isOpening, isClosing, Bool.or_eq_true, beq_iff_eq] at h
  rcases h with (rfl | rfl) | (rfl | rfl) | h
  · decide
  · decide
  · decide
  · decide
  · exact List.mem_append_right ['(', ')', '[', ']'] h

/-- A character that is no mark is no bracket. -/
theorem plain_of_not_mem_marks (h : c ∉ marks) : isOpening c = false ∧ isClosing c = false := by
  constructor
  · cases hopening : isOpening c with
    | false => rfl
    | true => exact absurd (mem_marks (.inl hopening)) h
  · cases hclosing : isClosing c with
    | false => rfl
    | true => exact absurd (mem_marks (.inr (.inl hclosing))) h

theorem not_mem_marks_of_isDigit (h : isDigit c = true) : c ∉ marks := by
  intro hmark
  have hnone : ∀ c ∈ marks, isDigit c = false := by decide
  rw [hnone c hmark] at h
  cases h

namespace Inert

theorem append (hfirst : Inert first) (hsecond : Inert second) : Inert (first ++ second) := by
  constructor
  · exact .append hfirst.balanced hsecond.balanced
  · intro c hc
    rcases List.mem_append.mp hc with hc | hc
    · exact hfirst.free c hc
    · exact hsecond.free c hc

theorem round (h : Inert text) : Inert ('(' :: (text ++ [')'])) := by
  constructor
  · exact .round h.balanced
  · intro c hc
    rcases List.mem_cons.mp hc with rfl | hc
    · decide
    · rcases List.mem_append.mp hc with hc | hc
      · exact h.free c hc
      · rw [List.mem_singleton.mp hc]
        decide

/-- A text that contains neither brackets nor operators. -/
theorem of_plain (h : ∀ c ∈ text, c ∉ marks) : Inert text := by
  constructor
  · apply Balanced.of_plain
    intro c hc
    exact plain_of_not_mem_marks (h c hc)
  · intro c hc hoperator
    exact h c hc (mem_marks (.inr (.inr hoperator)))

theorem of_blanks (h : Blanks text) : Inert text := by
  apply of_plain
  intro c hc
  simpa using forall_isBlank (fun c => !marks.contains c) (by decide) (h c hc)

theorem of_number (h : isNumber text = true) : Inert text := by
  apply of_plain
  intro c hc
  exact not_mem_marks_of_isDigit ((digits_iff.mp h).2 c hc)

end Inert

/-! ## Words and calls -/

theorem IsWordOf.mem (h : IsWordOf word text) (hc : c ∈ text) (hupper : c.isUpper = false) :
    c ∈ word.toList := by
  have hmap := List.mem_map_of_mem (f := Char.toLower) hc
  rwa [h, toLower_eq_self hupper] at hmap

theorem IsWordOf.inert (h : IsWordOf word text) (hword : ∀ c ∈ word.toList, c ∉ marks) :
    Inert text := by
  apply Inert.of_plain
  intro c hc hmark
  have hsmall : ∀ c ∈ marks, c.isUpper = false := by decide
  exact hword c (h.mem hc (hsmall c hmark)) hmark

theorem IsCall.inert (h : IsCall word text argument) (hword : ∀ c ∈ word.toList, c ∉ marks)
    (hargument : Inert argument) : Inert text := by
  cases h with
  | intro hhead hgap => exact (hhead.inert hword).append ((Inert.of_blanks hgap).append hargument.round)

theorem IsIdList.inert {ids : List Int} (h : IsIdList limit text ids) : Inert text := by
  induction h with
  | last hfront hid hback =>
      exact ((Inert.of_blanks hfront).append (.of_number hid.number)).append (.of_blanks hback)
  | next hfront hid hback _ ih =>
      have hcomma : Inert [','] := .of_plain (by decide)
      exact (((Inert.of_blanks hfront).append (.of_number hid.number)).append
        (.of_blanks hback)).append (hcomma.append ih)

theorem IsSource.inert (h : IsSource limit how text e) : Inert text := by
  cases h with
  | inbox hword => exact hword.inert (by decide)
  | values hword => exact hword.inert (by decide)
  | all hword => exact hword.inert (by decide)
  | inboxFrom hcall hids => exact hcall.inert (by decide) hids.inert
  | allFrom hcall hids => exact hcall.inert (by decide) hids.inert

theorem word_of_letter (h : c.isAlpha = true ∨ c = '_') :
    isAsciiAlphanumeric c = true ∨ c = '_' :=
  h.imp_left fun halpha => by simp [isAsciiAlphanumeric, halpha]

theorem not_mem_marks_of_word (h : isAsciiAlphanumeric c = true ∨ c = '_') : c ∉ marks := by
  intro hmark
  have hnone : ∀ c ∈ marks, ¬ (isAsciiAlphanumeric c = true ∨ c = '_') := by decide
  exact hnone c hmark h

/-- The characters of an identifier: a letter or an underscore, and then letters,
digits and underscores. -/
theorem exists_of_isIdentifier (h : isIdentifier text = true) :
    ∃ first rest, text = first :: rest ∧ (first.isAlpha = true ∨ first = '_') ∧
      ∀ c ∈ rest, isAsciiAlphanumeric c = true ∨ c = '_' := by
  cases text with
  | nil => cases h
  | cons first rest =>
      simp only [isIdentifier, Bool.and_eq_true, Bool.or_eq_true, beq_iff_eq, List.all_eq_true] at h
      exact ⟨first, rest, rfl, h.1, h.2⟩

theorem plain_of_isIdentifier (h : isIdentifier text = true) : ∀ c ∈ text, c ∉ marks := by
  rcases exists_of_isIdentifier h with ⟨first, rest, rfl, hfirst, hrest⟩
  intro c hc
  apply not_mem_marks_of_word
  rcases List.mem_cons.mp hc with rfl | hc
  · exact word_of_letter hfirst
  · exact hrest c hc

theorem ownWords_cases (h : text ∈ ownWords) :
    text = "self".toList ∨ text = "x".toList ∨ text = "xᵢ".toList ∨ text = "x_i".toList ∨
      text = "x[i]".toList := by
  simpa only [ownWords, List.map_cons, List.map_nil, List.mem_cons, List.not_mem_nil,
    or_false] using h

theorem inert_of_mem_ownWords (h : text ∈ ownWords) : Inert text := by
  rcases ownWords_cases h with rfl | rfl | rfl | rfl | rfl
  · exact .of_plain (by decide)
  · exact .of_plain (by decide)
  · exact .of_plain (by decide)
  · exact .of_plain (by decide)
  · have hname : Inert ['x'] := .of_plain (by decide)
    have hindex : Inert ['[', 'i', ']'] :=
      ⟨.square (.plain rfl rfl), by decide⟩
    exact hname.append hindex

theorem IsAtom.inert (h : IsAtom limit text e) : Inert text := by
  cases h with
  | @aggregate how _ _ _ _ _ hcall hfront hback hsource =>
      refine hcall.inert ?_ (((Inert.of_blanks hfront).append hsource.inert).append (.of_blanks hback))
      cases how <;> decide
  | valueFrom hcall hfront hback hid =>
      exact hcall.inert (by decide)
        (((Inert.of_blanks hfront).append (.of_number hid.number)).append (.of_blanks hback))
  | other => exact .of_plain (by decide)
  | otherOf hgap hfront hback =>
      have hword : Inert "received_other".toList := .of_plain (by decide)
      have hname : Inert ['x'] := .of_plain (by decide)
      exact hword.append ((Inert.of_blanks hgap).append
        (((Inert.of_blanks hfront).append hname).append (.of_blanks hback)).round)
  | own hown => exact inert_of_mem_ownWords hown
  | parameter hidentifier => exact .of_plain (plain_of_isIdentifier hidentifier)

/-! ## Where a token begins -/

theorem IsWordOf.front (h : IsWordOf word text)
    (hword : word.toList.head?.any Char.isAlpha = true) :
    ∃ c rest, text = c :: rest ∧ c.isAlpha = true := by
  cases text with
  | nil =>
      rw [← h] at hword
      cases hword
  | cons c rest =>
      refine ⟨c, rest, rfl, ?_⟩
      rw [← h, List.map_cons, List.head?_cons, Option.any_some] at hword
      by_cases hupper : c.isUpper = true
      · rw [isAlpha_eq_or, hupper, Bool.true_or]
      · rwa [toLower_eq_self (by simpa using hupper)] at hword

theorem IsCall.front (h : IsCall word text argument)
    (hword : word.toList.head?.any Char.isAlpha = true) :
    ∃ c rest, text = c :: rest ∧ c.isAlpha = true := by
  cases h with
  | @intro _ gap argument hhead _ =>
      rcases hhead.front hword with ⟨c, rest, rfl, hc⟩
      exact ⟨c, rest ++ (gap ++ '(' :: (argument ++ [')'])), rfl, hc⟩

/-- An atom begins with a letter or an underscore. -/
theorem IsAtom.front (h : IsAtom limit text e) :
    ∃ c rest, text = c :: rest ∧ (c.isAlpha = true ∨ c = '_') := by
  cases h with
  | @aggregate how _ _ _ _ _ hcall =>
      rcases hcall.front (by cases how <;> decide) with ⟨c, rest, htext, hc⟩
      exact ⟨c, rest, htext, .inl hc⟩
  | valueFrom hcall =>
      rcases hcall.front (by decide) with ⟨c, rest, htext, hc⟩
      exact ⟨c, rest, htext, .inl hc⟩
  | other => exact ⟨'r', _, rfl, .inl (by decide)⟩
  | otherOf => exact ⟨'r', _, rfl, .inl (by decide)⟩
  | own hown =>
      rcases ownWords_cases hown with rfl | rfl | rfl | rfl | rfl
      · exact ⟨'s', _, rfl, .inl (by decide)⟩
      · exact ⟨'x', _, rfl, .inl (by decide)⟩
      · exact ⟨'x', _, rfl, .inl (by decide)⟩
      · exact ⟨'x', _, rfl, .inl (by decide)⟩
      · exact ⟨'x', _, rfl, .inl (by decide)⟩
  | parameter hidentifier =>
      rcases exists_of_isIdentifier hidentifier with ⟨c, rest, rfl, hc, _⟩
      exact ⟨c, rest, rfl, hc⟩

/-! ## Where a token ends -/

/-- A text at whose end an operand is complete: it ends in neither a blank nor an
operator, and not in the mark of an exponent. -/
structure Complete (text : List Char) : Prop where
  back : ∃ init c, text = init ++ [c] ∧ isBlank c = false ∧ c ∉ "+-*/(,".toList
  mark : endsInExponentMark text.reverse = false

namespace Complete

/-- After an operand every operator joins. -/
theorem isJoining_eq (h : Complete text) (hbefore : AwaitsOperand before) {gap : List Char}
    (hgap : Blanks gap) (operator : Char) :
    isJoining operator (gap ++ (text.reverse ++ before)) = true := by
  have hmark := endsInExponentMark_append hbefore text.reverse
  rw [h.mark] at hmark
  rcases h.back with ⟨init, c, rfl, hblank, hc⟩
  rw [List.reverse_append, List.reverse_singleton, List.singleton_append,
    List.cons_append] at hmark ⊢
  have hno : "+-*/(,".toList.contains c = false := by simpa using hc
  simp only [isJoining, trimLeft_append hgap, trimLeft_cons hblank, hmark, hno]
  simp

/-- What stands before an operand does not matter. -/
theorem append_left (h : Complete text) {front : List Char} (hfront : AwaitsOperand front.reverse) :
    Complete (front ++ text) := by
  constructor
  · rcases h.back with ⟨init, c, rfl, hc⟩
    exact ⟨front ++ init, c, (List.append_assoc _ _ _).symm, hc⟩
  · rw [List.reverse_append, endsInExponentMark_append hfront]
    exact h.mark

theorem of_last {init : List Char} (hblank : isBlank c = false) (hc : c ∉ "+-*/(,".toList)
    (hmark : c ≠ 'e' ∧ c ≠ 'E') : Complete (init ++ [c]) := by
  constructor
  · exact ⟨init, c, rfl, hblank, hc⟩
  · simp [endsInExponentMark, hmark.1, hmark.2]

/-- A text that ends in a closing parenthesis. -/
theorem of_round (init : List Char) : Complete (init ++ [')']) :=
  of_last (by decide) (by decide) (by decide)

theorem of_digit {init : List Char} (hc : isDigit c = true) : Complete (init ++ [c]) := by
  refine of_last (isBlank_of_isDigit hc) ?_ ⟨?_, ?_⟩
  · intro hmem
    have hnone : ∀ c ∈ "+-*/(,".toList, isDigit c = false := by decide
    rw [hnone c hmem] at hc
    cases hc
  · rintro rfl
    cases hc
  · rintro rfl
    cases hc

end Complete

theorem isDigit_of_letter (h : c.isAlpha = true ∨ c = '_') : isDigit c = false := by
  cases hdigit : isDigit c with
  | false => rfl
  | true =>
      rcases h with h | rfl
      · rw [isAlpha_of_isDigit hdigit] at h
        cases h
      · cases hdigit

/-- In a word that begins with a letter no number begins. -/
theorem numberBegins_word {init : List Char}
    (hinit : ∀ c ∈ init, isAsciiAlphanumeric c = true ∨ c = '_')
    (hc : c.isAlpha = true ∨ c = '_') : numberBegins (init ++ [c]) = false := by
  have hword := word_of_letter hc
  induction init with
  | nil => simp [numberBegins, isDigit_of_letter hc]
  | cons d init ih =>
      have hrest : (init ++ [c]).head?.any (fun d => isAsciiAlphanumeric d || d == '_') = true := by
        cases init with
        | nil => simpa using hword
        | cons d' init => simpa using hinit d' (by simp)
      rw [List.cons_append, numberBegins, ih fun d hd => hinit d (List.mem_cons_of_mem _ hd), hrest]
      simp

/-- Before a letter that ends a word no number with a point ends. -/
theorem endsInExponentMark_word {last : Char} {init : List Char}
    (hinit : ∀ c ∈ init, isAsciiAlphanumeric c = true ∨ c = '_')
    (hc : c.isAlpha = true ∨ c = '_') : endsInExponentMark (last :: (init ++ [c])) = false := by
  simp only [endsInExponentMark, numberBegins_word hinit hc, Bool.false_or]
  split
  · next whole hpoint =>
    have hmem : '.' ∈ init ++ [c] := by
      apply (List.dropWhile_sublist isDigit).mem
      rw [hpoint]
      exact List.mem_cons_self
    rcases List.mem_append.mp hmem with hmem | hmem
    · exact absurd (hinit '.' hmem) (by decide)
    · rw [← List.mem_singleton.mp hmem] at hc
      exact absurd hc (by decide)
  · exact Bool.and_false _

theorem not_mem_openers_of_word (h : isAsciiAlphanumeric c = true ∨ c = '_') :
    c ∉ "+-*/(,".toList := by
  intro hmem
  have hnone : ∀ c ∈ "+-*/(,".toList, ¬ (isAsciiAlphanumeric c = true ∨ c = '_') := by decide
  exact hnone c hmem h

theorem isBlank_of_word (h : isAsciiAlphanumeric c = true ∨ c = '_') : isBlank c = false := by
  apply isBlank_eq_false (fun c => !(isAsciiAlphanumeric c || c == '_')) (by decide)
  rcases h with h | rfl
  · simp [h]
  · rfl

/-- An identifier ends in no mark of an exponent. -/
theorem Complete.of_isIdentifier (h : isIdentifier text = true) : Complete text := by
  rcases exists_of_isIdentifier h with ⟨first, rest, rfl, hfirst, hrest⟩
  have hword := word_of_letter hfirst
  rcases List.eq_nil_or_concat rest with rfl | ⟨init, last, rfl⟩
  · constructor
    · exact ⟨[], first, rfl, isBlank_of_word hword, not_mem_openers_of_word hword⟩
    · simp [endsInExponentMark, numberBegins]
  · rw [List.concat_eq_append] at hrest ⊢
    have hlast := hrest last (by simp)
    constructor
    · exact ⟨first :: init, last, rfl, isBlank_of_word hlast, not_mem_openers_of_word hlast⟩
    · have hreverse : (first :: (init ++ [last])).reverse = last :: (init.reverse ++ [first]) := by
        simp
      rw [hreverse]
      apply endsInExponentMark_word _ hfirst
      intro c hc
      exact hrest c (List.mem_append_left _ (List.mem_reverse.mp hc))

theorem IsCall.complete (h : IsCall word text argument) : Complete text := by
  cases h with
  | @intro head gap _ _ _ =>
      have hround := Complete.of_round (head ++ (gap ++ '(' :: argument))
      simpa using hround

theorem IsAtom.complete (h : IsAtom limit text e) : Complete text := by
  cases h with
  | aggregate hcall => exact hcall.complete
  | valueFrom hcall => exact hcall.complete
  | other => exact .of_isIdentifier (by decide)
  | @otherOf gap front back _ _ _ =>
      have hround := Complete.of_round
        ("received_other".toList ++ (gap ++ '(' :: (front ++ ['x'] ++ back)))
      simpa using hround
  | own hown =>
      rcases ownWords_cases hown with rfl | rfl | rfl | rfl | rfl
      · exact .of_isIdentifier (by decide)
      · exact .of_isIdentifier (by decide)
      · show Complete (['x'] ++ ['ᵢ'])
        exact .of_last (by decide) (by decide) (by decide)
      · exact .of_isIdentifier (by decide)
      · show Complete (['x', '[', 'i'] ++ [']'])
        exact .of_last (by decide) (by decide) (by decide)
  | parameter hidentifier => exact .of_isIdentifier hidentifier

theorem IsAtom.trimmed (h : IsAtom limit text e) : Trimmed text := by
  constructor
  · rcases h.front with ⟨c, rest, htext, hc⟩
    exact ⟨c, rest, htext, isBlank_of_word (word_of_letter hc)⟩
  · rcases h.complete.back with ⟨init, c, htext, hblank, _⟩
    exact ⟨init, c, htext, hblank⟩

/-! ## Tokens without blanks around them -/

theorem IsWordOf.trimmed (h : IsWordOf word text)
    (hword : word.toList.head?.any Char.isAlpha = true)
    (hblank : ∀ c ∈ word.toList, isBlank c = false) : Trimmed text := by
  have hplain : ∀ c ∈ text, isBlank c = false := by
    intro c hc
    by_cases hupper : c.isUpper = true
    · apply isBlank_eq_false (fun c => !c.isUpper) (by decide)
      simpa using hupper
    · exact hblank c (h.mem hc (by simpa using hupper))
  rcases h.front hword with ⟨c, rest, rfl, _⟩
  constructor
  · exact ⟨c, rest, rfl, hplain c List.mem_cons_self⟩
  · have hlast := List.dropLast_concat_getLast (List.cons_ne_nil c rest)
    exact ⟨_, _, hlast.symm, hplain _ (List.getLast_mem _)⟩

theorem IsCall.trimmed (h : IsCall word text argument)
    (hword : word.toList.head?.any Char.isAlpha = true) : Trimmed text := by
  constructor
  · rcases h.front hword with ⟨c, rest, htext, hc⟩
    exact ⟨c, rest, htext, isBlank_of_word (word_of_letter (.inl hc))⟩
  · rcases h.complete.back with ⟨init, c, htext, hblank, _⟩
    exact ⟨init, c, htext, hblank⟩

theorem IsSource.trimmed (h : IsSource limit how text e) : Trimmed text := by
  cases h with
  | inbox hword => exact hword.trimmed (by decide) (by decide)
  | values hword => exact hword.trimmed (by decide) (by decide)
  | all hword => exact hword.trimmed (by decide) (by decide)
  | inboxFrom hcall => exact hcall.trimmed (by decide)
  | allFrom hcall => exact hcall.trimmed (by decide)

end LossyConsensus.Source
