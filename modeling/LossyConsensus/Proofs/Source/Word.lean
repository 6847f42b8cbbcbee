/-
# Words and calls in source texts

Over the characters of source texts the small form is taken character by
character, and comparing without regard to case is comparing small forms.  So
the readers of words and calls accept exactly the words and calls of the
grammar.
-/

import LossyConsensus.Proofs.Source.Token
import LossyConsensus.Proofs.Text.Scan

namespace LossyConsensus.Source

open LossyConsensus.Decimal LossyConsensus.Protocol LossyConsensus.Text

variable {word other : String} {text rest argument first second front back digits : List Char}
  {small c : Char}

/-! ## Characters -/

/-- What holds of all characters of ASCII and of the index holds of every
character of a source text. -/
theorem forall_isSourceChar (property : Char → Bool)
    (h : ∀ point < 128, (!isSourceChar (Char.ofNat point) || property (Char.ofNat point)) = true)
    (hindex : property 'ᵢ' = true) (hc : isSourceChar c = true) : property c = true := by
  by_cases hascii : c.toNat < 128
  · have hor := forall_ascii (fun c => !isSourceChar c || property c) h hascii
    simpa [hc] using hor
  · simp only [isSourceChar, Bool.or_eq_true, Bool.and_eq_true, decide_eq_true_eq,
      beq_iff_eq] at hc
    rcases hc with (hc | rfl) | rfl
    · omega
    · exact absurd (by decide) hascii
    · exact hindex

theorem isCaseOf_iff (hc : isSourceChar c = true) :
    isCaseOf small c = true ↔ c.toLower = small := by
  have hplain := forall_isSourceChar
    (fun c => c.toNat != 0x17f && c.toNat != 0x131 && c.toNat != 0x130 && c.toNat != 0x212a)
    (by decide) (by decide) hc
  simp only [Bool.and_eq_true, bne_iff_ne] at hplain
  simp [isCaseOf, hplain.1.1.1, hplain.1.1.2, hplain.1.2, hplain.2]

theorem isNumeralBlank_eq (hc : isSourceChar c = true) : isNumeralBlank c = isBlank c := by
  have hsame := forall_isSourceChar (fun c => isNumeralBlank c == isBlank c) (by decide)
    (by decide) hc
  exact beq_iff_eq.mp hsame

theorem isSourceChar_toLower (hc : isSourceChar c = true) : isSourceChar c.toLower = true :=
  forall_isSourceChar (fun c => isSourceChar c.toLower) (by decide) (by decide) hc

theorem toLower_toLower (hc : isSourceChar c = true) : c.toLower.toLower = c.toLower := by
  have hsame := forall_isSourceChar (fun c => c.toLower.toLower == c.toLower) (by decide)
    (by decide) hc
  exact beq_iff_eq.mp hsame

/-- A character whose small form is no letter is that form. -/
theorem toLower_eq_of_not_alpha (hc : isSourceChar c = true) (h : c.toLower.isAlpha = false) :
    c.toLower = c := by
  have hsame := forall_isSourceChar (fun c => c.toLower.isAlpha || c.toLower == c) (by decide)
    (by decide) hc
  simpa [h] using hsame

theorem lowerFrom_eq (hc : isSourceChar c = true) (before rest : List Char) :
    lowerFrom before (c :: rest) = c.toLower :: lowerFrom (c :: before) rest := by
  have hsmall := forall_isSourceChar (fun c => c.toNat != 0x3a3 && lowerChar c == [c.toLower])
    (by decide +kernel) (by decide +kernel) hc
  rw [Bool.and_eq_true, bne_iff_ne, beq_iff_eq] at hsmall
  rw [lowerFrom, if_neg (by simpa using hsmall.1), hsmall.2, List.singleton_append]

/-! ## Source texts -/

theorem IsSourceText.append_iff :
    IsSourceText (first ++ second) ↔ IsSourceText first ∧ IsSourceText second :=
  List.forall_mem_append

theorem IsSourceText.cons_iff :
    IsSourceText (c :: text) ↔ isSourceChar c = true ∧ IsSourceText text :=
  List.forall_mem_cons

theorem IsSourceText.trim (h : IsSourceText text) : IsSourceText (trim text) :=
  fun c hc => h c (mem_of_mem_trim hc)

/-- A text of characters that are lowered one by one, whatever stands around them. -/
theorem lower_eq_map (h : ∀ c ∈ text, ∀ before rest,
    lowerFrom before (c :: rest) = c.toLower :: lowerFrom (c :: before) rest) :
    lower text = text.map Char.toLower := by
  have hfrom : ∀ before, lowerFrom before text = text.map Char.toLower := by
    induction text with
    | nil =>
        intro before
        rfl
    | cons c text ih =>
        intro before
        rw [List.forall_mem_cons] at h
        rw [h.1, ih h.2, List.map_cons]
  exact hfrom []

theorem lower_eq (h : IsSourceText text) : lower text = text.map Char.toLower :=
  lower_eq_map fun c hc => lowerFrom_eq (h c hc)

theorem IsSourceText.lower (h : IsSourceText text) : IsSourceText (text.map Char.toLower) := by
  intro c hc
  rcases List.mem_map.mp hc with ⟨d, hd, rfl⟩
  exact isSourceChar_toLower (h d hd)

theorem trimNumeral_eq_trim (h : IsSourceText text) : trimNumeral text = trim text := by
  have hdrop : ∀ {text : List Char}, IsSourceText text →
      text.dropWhile isNumeralBlank = trimLeft text := by
    intro text h
    induction text with
    | nil => rfl
    | cons c text ih =>
        rw [IsSourceText.cons_iff] at h
        rw [trimLeft, List.dropWhile_cons, List.dropWhile_cons, isNumeralBlank_eq h.1, ih h.2]
        rfl
  have hleft : IsSourceText (trimLeft text).reverse := by
    intro c hc
    exact h c ((List.dropWhile_sublist isBlank).mem (List.mem_reverse.mp hc))
  rw [trimNumeral, hdrop h, hdrop hleft]
  rfl

/-- A text whose small form has no letters is that form. -/
theorem eq_map_toLower (h : IsSourceText text)
    (halpha : ∀ c ∈ text.map Char.toLower, c.isAlpha = false) : text = text.map Char.toLower := by
  induction text with
  | nil => rfl
  | cons c text ih =>
      rw [IsSourceText.cons_iff] at h
      rw [List.map_cons, List.forall_mem_cons] at halpha
      rw [List.map_cons, ← ih h.2 halpha.2, toLower_eq_of_not_alpha h.1 halpha.1]

/-- A text without letters is its small form. -/
theorem map_toLower_eq (halpha : ∀ c ∈ text, c.isAlpha = false) :
    text.map Char.toLower = text := by
  induction text with
  | nil => rfl
  | cons c text ih =>
      rw [List.forall_mem_cons] at halpha
      rw [List.map_cons, ih halpha.2, toLower_eq_self (isUpper_of_isAlpha halpha.1)]

/-! ## Words -/

theorem afterAnyCase?_eq_some_iff {word : List Char} (h : IsSourceText text) :
    afterAnyCase? word text = some rest ↔
      ∃ head, text = head ++ rest ∧ head.map Char.toLower = word := by
  induction word generalizing text with
  | nil =>
      rw [afterAnyCase?, Option.some.injEq]
      constructor
      · rintro rfl
        exact ⟨[], rfl, rfl⟩
      · rintro ⟨head, rfl, hhead⟩
        rw [List.map_eq_nil_iff.mp hhead, List.nil_append]
  | cons w word ih =>
      cases text with
      | nil =>
          constructor
          · intro hnone
            cases hnone
          · rintro ⟨head, hnil, hhead⟩
            rw [(List.append_eq_nil_iff.mp hnil.symm).1] at hhead
            cases hhead
      | cons c text =>
          rw [IsSourceText.cons_iff] at h
          rw [afterAnyCase?]
          constructor
          · intro hread
            split at hread
            · next hcase =>
              rcases (ih h.2).mp hread with ⟨head, rfl, hhead⟩
              refine ⟨c :: head, rfl, ?_⟩
              rw [List.map_cons, hhead, (isCaseOf_iff h.1).mp hcase]
            · cases hread
          · rintro ⟨head, htext, hhead⟩
            cases head with
            | nil => cases hhead
            | cons d head =>
                cases htext
                rw [List.map_cons, List.cons.injEq] at hhead
                rw [if_pos ((isCaseOf_iff h.1).mpr hhead.1)]
                exact (ih h.2).mpr ⟨head, rfl, hhead.2⟩

/-- The small form of a word is the same word. -/
theorem isWordOf_lower_iff (h : IsSourceText text) :
    IsWordOf word (text.map Char.toLower) ↔ IsWordOf word text := by
  have hidem : (text.map Char.toLower).map Char.toLower = text.map Char.toLower := by
    rw [List.map_map]
    apply List.map_congr_left
    intro c hc
    exact toLower_toLower (h c hc)
  rw [IsWordOf, hidem, IsWordOf]

/-- Words that begin one text agree as far as the shorter one goes. -/
theorem begins_or_begins (hfirst : word.toList <+: text.map Char.toLower)
    (hsecond : other.toList <+: text.map Char.toLower) :
    word.toList <+: other.toList ∨ other.toList <+: word.toList :=
  List.prefix_or_prefix_of_prefix hfirst hsecond

/-! ## Calls -/

theorem call?_eq_some_iff {head : List Char} (h : IsSourceText text) :
    call? word text = some (head, argument) ↔
      IsWordOf word head ∧ ∃ gap, Blanks gap ∧ text = head ++ (gap ++ '(' :: (argument ++ [')'])) := by
  constructor
  · intro hcall
    simp only [call?, Option.bind_eq_bind, Option.bind_eq_some_iff, Option.pure_def,
      Option.some.injEq, Prod.mk.injEq] at hcall
    rcases hcall with ⟨rest, hafter, found, hfound, hhead, rfl⟩
    rcases (afterAnyCase?_eq_some_iff h).mp hafter with ⟨front, rfl, hword⟩
    rcases exists_trimLeft rest with ⟨gap, hgap, hrest⟩
    have hlength : word.length = front.length := by
      rw [← String.length_toList, ← hword, List.length_map]
    rw [hlength, List.take_left] at hhead
    subst hhead
    refine ⟨hword, gap, hgap, ?_⟩
    rw [← parenthesised?_eq_some_iff.mp hfound, ← hrest]
  · rintro ⟨hword, gap, hgap, rfl⟩
    have hafter := (afterAnyCase?_eq_some_iff h).mpr ⟨head, rfl, hword⟩
    have hlength : word.length = head.length := by
      rw [← String.length_toList, ← hword, List.length_map]
    have hround : trimLeft (gap ++ '(' :: (argument ++ [')'])) = '(' :: (argument ++ [')']) := by
      rw [trimLeft_append hgap, trimLeft_cons (by decide)]
    simp [call?, hafter, hround, parenthesised?_eq_some_iff.mpr rfl, hlength]

theorem isCall_of_call? {head : List Char} (h : IsSourceText text)
    (hcall : call? word text = some (head, argument)) : IsCall word text argument := by
  rcases (call?_eq_some_iff h).mp hcall with ⟨hword, gap, hgap, rfl⟩
  exact .intro hword hgap

namespace IsCall

theorem exists_call? (h : IsCall word text argument) (htext : IsSourceText text) :
    ∃ head, IsWordOf word head ∧ call? word text = some (head, argument) := by
  cases h with
  | @intro head gap _ hword hgap =>
      exact ⟨head, hword, (call?_eq_some_iff htext).mpr ⟨hword, gap, hgap, rfl⟩⟩

theorem word_begins (h : IsCall word text argument) : word.toList <+: text.map Char.toLower := by
  cases h with
  | intro hword _ =>
      rw [List.map_append, hword]
      exact List.prefix_append _ _

/-- A text calls a word with one argument only. -/
theorem argument_eq (htext : IsSourceText text) {found : List Char}
    (h : IsCall word text argument) (hfound : IsCall word text found) : argument = found := by
  rcases h.exists_call? htext with ⟨head, _, hcall⟩
  rcases hfound.exists_call? htext with ⟨head', _, hcall'⟩
  rw [hcall] at hcall'
  cases hcall'
  rfl

theorem round_mem (h : IsCall word text argument) : '(' ∈ text := by
  cases h with
  | intro => simp

theorem argument_mem (h : IsCall word text argument) (hc : c ∈ argument) : c ∈ text := by
  cases h with
  | intro => simp [hc]

/-- The small form of a call is a call, of an argument without letters the
same. -/
theorem lower_iff (htext : IsSourceText text) (hargument : ∀ c ∈ argument, c.isAlpha = false) :
    IsCall word (text.map Char.toLower) argument ↔ IsCall word text argument := by
  have hplain : ∀ {gap : List Char}, Blanks gap →
      ∀ c ∈ gap ++ '(' :: (argument ++ [')']), c.isAlpha = false := by
    intro gap hgap c hc
    rcases List.mem_append.mp hc with hc | hc
    · simpa using forall_isBlank (fun c => !c.isAlpha) (by decide) (hgap c hc)
    · rcases List.mem_cons.mp hc with rfl | hc
      · decide
      · rcases List.mem_append.mp hc with hc | hc
        · exact hargument c hc
        · rw [List.mem_singleton.mp hc]
          decide
  constructor
  · intro h
    generalize hshown : text.map Char.toLower = shown at h
    cases h with
    | @intro head gap _ hword hgap =>
        rcases List.map_eq_append_iff.mp hshown with ⟨front, rest, rfl, hfront, hrest⟩
        rw [IsSourceText.append_iff] at htext
        rw [eq_map_toLower htext.2 (by rw [hrest]; exact hplain hgap), hrest]
        rw [← hfront] at hword
        exact .intro ((isWordOf_lower_iff htext.1).mp hword) hgap
  · intro h
    cases h with
    | @intro head gap _ hword hgap =>
        rw [IsSourceText.append_iff] at htext
        rw [List.map_append, map_toLower_eq (hplain hgap)]
        exact .intro ((isWordOf_lower_iff htext.1).mpr hword) hgap

end IsCall

end LossyConsensus.Source
