/-
# Written expressions in place

Around an expression stand the words of predicates and rules, and the readers
look for these words in texts that hold expressions.  Outside parentheses a
written expression has neither blanks nor commas nor signs of comparison, it
begins with no keyword, and every blank inside it stands before an operand, an
operator or a number.  So none of the words is found in it.
-/

import LossyConsensus.Proofs.Source.WrittenExpr
import LossyConsensus.Source.Rule

namespace LossyConsensus.Source

open LossyConsensus.Decimal LossyConsensus.Protocol LossyConsensus.Text

variable {limit : Option Nat} {processes : Nat} {names : List String} {e : Expr Float}
  {text word rest following list : List Char} {c d : Char} {shown : Char → Char}

/-! ## Small letters -/

/-- Only a character itself has a small form that is no letter. -/
theorem eq_of_toLower_eq (hd : d.isAlpha = false) (h : c.toLower = d) : c = d := by
  by_cases hupper : c.isUpper = true
  · have halpha : c.isAlpha = true := by rw [isAlpha_eq_or, hupper, Bool.true_or]
    have hsmall := forall_ascii (fun c => !c.isAlpha || c.toLower.isAlpha) (by decide)
      (toNat_lt_of_isAlpha halpha)
    simp only [halpha, h, hd] at hsmall
    cases hsmall
  · rwa [toLower_eq_self (by simpa using hupper)] at h

/-- A word that begins the small form of a text is the small form of what begins
the text. -/
theorem exists_of_prefix_map (h : word <+: text.map Char.toLower) :
    ∃ begin rest, text = begin ++ rest ∧ begin.map Char.toLower = word := by
  obtain ⟨_, hparts⟩ := h
  obtain ⟨begin, rest, rfl, hbegin, _⟩ := List.map_eq_append_iff.mp hparts.symm
  exact ⟨begin, rest, rfl, hbegin⟩

/-! ## Solid texts -/

/-- The characters of an expression outside parentheses: all but blanks, commas,
signs of comparison and parentheses. -/
def isTokenChar (c : Char) : Bool :=
  !isBlank c && !"<>=!,()".toList.contains c

/-- A text of token characters, or of token characters before a text in
parentheses. -/
inductive Solid : List Char → Prop
  | word {head : List Char} (hbalanced : Balanced head)
      (htoken : ∀ c ∈ head, isTokenChar c = true) : Solid head
  | call {head body : List Char} (hbalanced : Balanced head)
      (htoken : ∀ c ∈ head, isTokenChar c = true) (hbody : Balanced body) :
      Solid (head ++ enclosed body)

theorem isTokenChar_of_word (h : isAsciiAlphanumeric c = true ∨ c = '_') :
    isTokenChar c = true := by
  rw [isTokenChar, isBlank_of_word h, Bool.not_false, Bool.true_and, Bool.not_eq_true',
    Bool.eq_false_iff, Ne, List.contains_iff_mem]
  intro hmem
  have hnone : ∀ c ∈ "<>=!,()".toList, ¬ (isAsciiAlphanumeric c = true ∨ c = '_') := by decide
  exact hnone c hmem h

theorem isTokenChar_of_isDigit (h : isDigit c = true) : isTokenChar c = true := by
  rw [isTokenChar, isBlank_of_isDigit h, Bool.not_false, Bool.true_and, Bool.not_eq_true',
    Bool.eq_false_iff, Ne, List.contains_iff_mem]
  intro hmem
  have hnone : ∀ c ∈ "<>=!,()".toList, isDigit c = false := by decide
  rw [hnone c hmem] at h
  cases h

namespace Solid

theorem balanced (h : Solid text) : Balanced text := by
  cases h with
  | word hbalanced _ => exact hbalanced
  | call hbalanced _ hbody => exact hbalanced.append hbody.round

/-- A scan for a word passes over a solid text, if no token character is
compared as the first character of the word. -/
theorem passes {first : Char} (h : Solid text)
    (hfirst : ∀ c, isTokenChar c = true → shown c ≠ first) :
    Passes shown (first :: word) text following := by
  cases h with
  | word hbalanced htoken => exact .of_balanced hbalanced fun c hc => hfirst c (htoken c hc)
  | call hbalanced htoken hbody =>
      exact .append (.of_balanced hbalanced fun c hc => hfirst c (htoken c hc)) (.round hbody)

/-- What begins a solid text without a parenthesis has token characters
only. -/
theorem token_of_prefix (h : Solid text) (hword : word <+: text) (hround : '(' ∉ word) :
    ∀ c ∈ word, isTokenChar c = true := by
  cases h with
  | word _ htoken => exact fun c hc => htoken c (hword.subset hc)
  | @call head body _ htoken _ =>
      rcases List.prefix_or_prefix_of_prefix hword (List.prefix_append head (enclosed body))
        with hhead | ⟨more, rfl⟩
      · exact fun c hc => htoken c (hhead.subset hc)
      · rw [List.prefix_append_right_inj] at hword
        cases more with
        | nil =>
            rw [List.append_nil]
            exact htoken
        | cons d more =>
            obtain ⟨_, hrest⟩ := hword
            obtain rfl : d = '(' := (List.cons.inj hrest).1
            exact absurd (by simp) hround

/-- No word with a blank begins a solid text in small letters. -/
theorem not_begins (h : Solid text) (hblank : ' ' ∈ word) (hround : '(' ∉ word) :
    ¬ word <+: text.map Char.toLower := by
  intro hword
  obtain ⟨begin, rest, rfl, rfl⟩ := exists_of_prefix_map hword
  have htoken := h.token_of_prefix (List.prefix_append begin rest) fun hmem =>
    hround (List.mem_map_of_mem (f := Char.toLower) hmem)
  obtain ⟨c, hc, hspace⟩ := List.mem_map.mp hblank
  obtain rfl := eq_of_toLower_eq (by decide) hspace
  exact absurd (htoken ' ' hc) (by decide)

end Solid

theorem isTokenChar_of_numeral (h : IsNumeral text) : ∀ c ∈ text, isTokenChar c = true := by
  intro c hc
  exact h.forall_mem (fun c => isTokenChar c = true) (fun _ hdigit => isTokenChar_of_isDigit hdigit)
    (by decide) c hc

theorem isTokenChar_of_identifier (h : isIdentifier text = true) :
    ∀ c ∈ text, isTokenChar c = true := by
  rcases exists_of_isIdentifier h with ⟨first, rest, rfl, hfirst, hrest⟩
  intro c hc
  rcases List.mem_cons.mp hc with rfl | hc
  · exact isTokenChar_of_word (word_of_letter hfirst)
  · exact isTokenChar_of_word (hrest c hc)

theorem solid_called {word : String} (hword : ∀ c ∈ word.toList, c ∉ marks)
    (htoken : ∀ c ∈ word.toList, isTokenChar c = true) (hargument : Balanced text) :
    Solid (called word text) :=
  .call (.of_plain fun c hc => plain_of_not_mem_marks (hword c hc)) htoken hargument

theorem WritesIds.balanced {ids : List Int} (h : WritesIds limit ids list) : Balanced list := by
  induction h with
  | last hid => exact (Inert.of_number hid.number).balanced
  | next hid _ ih =>
      have hcomma : Inert ", ".toList := .of_plain (by decide)
      exact ((Inert.of_number hid.number).balanced.append hcomma.balanced).append ih

theorem balanced_called {word : String} (hword : ∀ c ∈ word.toList, c ∉ marks)
    (hargument : Balanced text) : Balanced (called word text) :=
  (Balanced.of_plain fun c hc => plain_of_not_mem_marks (hword c hc)).append hargument.round

/-- Outside its parentheses a written expression has token characters only. -/
theorem WritesExpr.solid (h : WritesExpr limit e text)
    (hsayable : Expr.Sayable processes names e) : Solid text := by
  cases h with
  | own hown =>
      have htoken : ∀ text ∈ ownWords, ∀ c ∈ text, isTokenChar c = true := by decide
      exact .word (inert_of_mem_ownWords hown).balanced (htoken text hown)
  | parameter =>
      have hidentifier := hsayable.2.identifier
      exact .word (Inert.of_plain (plain_of_isIdentifier hidentifier)).balanced
        (isTokenChar_of_identifier hidentifier)
  | literal hform _ => exact .word (balanced_numeral hform) (isTokenChar_of_numeral hform)
  | @binary op left right l r hleft hright =>
      have hbody : Derives limit .sum _ (.binary op l r) :=
        derives_operation (hleft.derives hsayable.1) (hright.derives hsayable.2)
      exact .call .nil (by simp) hbody.placed.balanced
  | @aggregate how withOwn =>
      have hword : Balanced (inboxWord withOwn).toList := by
        apply Balanced.of_plain
        cases withOwn <;> decide
      exact solid_called (by cases how <;> decide) (by cases how <;> decide) hword
  | @aggregateFrom how ids withOwn list hids =>
      have hsenders : Balanced (called (sendersWord withOwn) list) :=
        balanced_called (by cases withOwn <;> decide) hids.balanced
      exact solid_called (by cases how <;> decide) (by cases how <;> decide) hsenders
  | other => exact .word (Inert.of_plain (by decide)).balanced (by decide)
  | valueFrom hid =>
      exact solid_called (by decide) (by decide) (Inert.of_number hid.number).balanced

/-! ## Keywords -/

/-- The words that are looked for at the front of a word. -/
def keywords : List (List Char) :=
  ["then".toList, "not".toList]

/-- A text that begins with one of the words in any case, as a whole word. -/
def BeginsKeyword (text : List Char) : Prop :=
  ∃ word rest, text = word ++ rest ∧ word.map Char.toLower ∈ keywords ∧ atWordEnd rest = true

theorem isWordChar_of_alpha (h : c.isAlpha = true) : isWordChar c = true := by
  have hor := forall_ascii (fun c => !c.isAlpha || isWordChar c) (by decide)
    (toNat_lt_of_isAlpha h)
  simpa [h] using hor

theorem isAlpha_of_toLower (h : c.toLower.isAlpha = true) : c.isAlpha = true := by
  by_cases hupper : c.isUpper = true
  · rw [isAlpha_eq_or, hupper, Bool.true_or]
  · rwa [toLower_eq_self (by simpa using hupper)] at h

theorem isWordChar_of_word (h : isAsciiAlphanumeric c = true ∨ c = '_') :
    isWordChar c = true := by
  simpa [isWordChar, toNat_lt_of_word h] using h

theorem keyword_letters (h : word.map Char.toLower ∈ keywords) :
    ∀ c ∈ word, c.isAlpha = true := by
  have hletters : ∀ small ∈ keywords, ∀ c ∈ small, c.isAlpha = true := by decide
  intro c hc
  exact isAlpha_of_toLower (hletters _ h _ (List.mem_map_of_mem hc))

/-- A keyword begins with one of two letters. -/
theorem keyword_front (h : word.map Char.toLower ∈ keywords) :
    ∃ c more, word = c :: more ∧ c.toLower ∈ ['t', 'n'] := by
  have hfront : ∀ small ∈ keywords, ∃ c more, small = c :: more ∧ c ∈ ['t', 'n'] := by
    intro small hsmall
    simp only [keywords, List.mem_cons, List.not_mem_nil, or_false] at hsmall
    rcases hsmall with rfl | rfl
    · exact ⟨'t', "hen".toList, rfl, by decide⟩
    · exact ⟨'n', "ot".toList, rfl, by decide⟩
  obtain ⟨small, more, hparts, hsmall⟩ := hfront _ h
  obtain ⟨c, rest, rfl, rfl, _⟩ := List.map_eq_cons_iff.mp hparts
  exact ⟨c, rest, rfl, hsmall⟩

/-- Where a text begins with another letter no keyword begins. -/
theorem not_beginsKeyword_of_front (hc : c.toLower ∉ ['t', 'n']) :
    ¬ BeginsKeyword (c :: text) := by
  rintro ⟨word, rest, hparts, hword, _⟩
  obtain ⟨d, more, rfl, hd⟩ := keyword_front hword
  cases hparts
  exact hc hd

theorem not_beginsKeyword_of_isDigit (hc : isDigit c = true) : ¬ BeginsKeyword (c :: text) := by
  apply not_beginsKeyword_of_front
  intro hmem
  have hall : ∀ d ∈ ['t', 'n'], d.isAlpha = true := by decide
  have hletter := isAlpha_of_toLower (hall _ hmem)
  rw [isAlpha_of_isDigit hc] at hletter
  cases hletter

/-- A written expression that ends as a word begins with no keyword. -/
theorem WritesExpr.not_beginsKeyword (h : WritesExpr limit e text)
    (hsayable : Expr.Sayable processes names e) (hfollowing : atWordEnd following = true) :
    ¬ BeginsKeyword (text ++ following) := by
  cases h with
  | own hown =>
      rcases ownWords_cases hown with rfl | rfl | rfl | rfl | rfl
      all_goals exact not_beginsKeyword_of_front (by decide)
  | @parameter name =>
      rintro ⟨word, rest, hparts, hword, hrest⟩
      rcases exists_of_isIdentifier hsayable.2.identifier with ⟨first, more, hname, hfirst, hmore⟩
      have hchars : ∀ c ∈ name.toList, isWordChar c = true := by
        rw [hname]
        intro c hc
        rcases List.mem_cons.mp hc with rfl | hc
        · exact isWordChar_of_word (word_of_letter hfirst)
        · exact isWordChar_of_word (hmore c hc)
      have hsame : name.toList = word := by
        have hletters : ∀ c ∈ word, isWordChar c = true :=
          fun c hc => isWordChar_of_alpha (keyword_letters hword c hc)
        rw [← takeWhile_run hchars (atWordEnd_iff.mp hfollowing), hparts,
          takeWhile_run hletters (atWordEnd_iff.mp hrest)]
      rw [← hsame] at hword
      exact hsayable.2.keyword hword
  | literal hform _ =>
      obtain ⟨c, rest, rfl, hc⟩ := hform.front
      rcases hc with hc | rfl | rfl
      · exact not_beginsKeyword_of_isDigit hc
      · exact not_beginsKeyword_of_front (by decide)
      · exact not_beginsKeyword_of_front (by decide)
  | binary _ _ => exact not_beginsKeyword_of_front (by decide)
  | @aggregate how withOwn =>
      cases how
      all_goals exact not_beginsKeyword_of_front (by decide)
  | @aggregateFrom how _ _ _ _ =>
      cases how
      all_goals exact not_beginsKeyword_of_front (by decide)
  | other => exact not_beginsKeyword_of_front (by decide)
  | valueFrom _ => exact not_beginsKeyword_of_front (by decide)

/-! ## Conditions -/

/-- The search for `then` passes over a text that stands before `following`. -/
def PassesThen (text following : List Char) : Prop :=
  ∀ seen, conditionFrom seen (text ++ following) = conditionFrom (text.reverse ++ seen) following

/-- Besides its two cases no letter of the word has another. -/
theorem exists_of_afterAnyCase? (hword : ∀ small ∈ word, small ∉ ['s', 'i', 'k'])
    (h : afterAnyCase? word text = some rest) :
    ∃ begin, text = begin ++ rest ∧ begin.map Char.toLower = word := by
  induction word generalizing text with
  | nil =>
      cases h
      exact ⟨[], rfl, rfl⟩
  | cons small word ih =>
      cases text with
      | nil => cases h
      | cons c text =>
          rw [List.forall_mem_cons] at hword
          rw [afterAnyCase?] at h
          split at h
          · next hcase =>
            obtain ⟨begin, rfl, hbegin⟩ := ih hword.2 h
            simp only [List.mem_cons, List.not_mem_nil, or_false, not_or] at hword
            have hsmall : c.toLower = small := by simpa [isCaseOf, hword.1] using hcase
            exact ⟨c :: begin, rfl, by rw [List.map_cons, hsmall, hbegin]⟩
          · cases h

theorem afterThen?_eq_none (h : ¬ BeginsKeyword (c :: text)) (hc : isBlank c = false) :
    afterThen? (' ' :: c :: text) = none := by
  have hblanks : blanks? (' ' :: c :: text) = some (c :: text) := by
    rw [blanks?, if_pos (by decide), trimLeft_cons hc]
  cases hafter : afterAnyCase? "then".toList (c :: text) with
  | none => simp only [afterThen?, hblanks, Option.bind_eq_bind, Option.bind_some, hafter,
      Option.bind_none]
  | some rest =>
      obtain ⟨word, hparts, hword⟩ := exists_of_afterAnyCase? (by decide) hafter
      have hend : atWordEnd rest = false := by
        cases hend : atWordEnd rest with
        | false => rfl
        | true => exact absurd ⟨word, rest, hparts, by rw [hword]; decide, hend⟩ h
      simp only [afterThen?, hblanks, Option.bind_eq_bind, Option.bind_some, hafter, hend,
        Bool.false_and, Bool.false_eq_true, if_false]

namespace PassesThen

theorem append (hfirst : PassesThen text (rest ++ following))
    (hsecond : PassesThen rest following) : PassesThen (text ++ rest) following := by
  intro seen
  rw [List.append_assoc, hfirst, hsecond, List.reverse_append, List.append_assoc]

/-- The search goes on at a character before which no `then` is recognised. -/
theorem char (hc : c ≠ '\n') (h : afterThen? (c :: following) = none) :
    PassesThen [c] following := by
  intro seen
  have hno : (if seen.isEmpty then none else afterThen? (c :: following)) = none := by
    rw [h]
    exact ite_self none
  rw [List.singleton_append, conditionFrom, hno]
  simp [hc]

theorem plain (h : ∀ c ∈ text, isBlank c = false) : PassesThen text following := by
  induction text with
  | nil => exact fun _ => rfl
  | cons c text ih =>
      rw [List.forall_mem_cons] at h
      have hline : c ≠ '\n' := by
        rintro rfl
        cases h.1
      have hno : afterThen? (c :: (text ++ following)) = none := by
        rw [afterThen?, blanks?, h.1]
        rfl
      have hchar : PassesThen [c] (text ++ following) := .char hline hno
      exact hchar.append (ih h.2)

/-- The search passes over a blank before what begins with no keyword. -/
theorem space (hfront : ∃ c rest, text = c :: rest ∧ isBlank c = false)
    (hkeyword : ¬ BeginsKeyword (text ++ following)) (h : PassesThen text following) :
    PassesThen (' ' :: text) following := by
  obtain ⟨c, rest, rfl, hc⟩ := hfront
  have hspace : PassesThen [' '] (c :: rest ++ following) :=
    .char (by decide) (afterThen?_eq_none hkeyword hc)
  exact hspace.append h

end PassesThen

theorem isBlank_of_isTokenChar (h : isTokenChar c = true) : isBlank c = false := by
  rw [isTokenChar, Bool.and_eq_true, Bool.not_eq_true'] at h
  exact h.1

theorem WritesIds.front {ids : List Int} (h : WritesIds limit ids list) :
    ∃ c rest, list = c :: rest ∧ isDigit c = true := by
  have hdigits : ∀ {digits : List Char} {id : Int}, IsCount limit digits id →
      ∃ c rest, digits = c :: rest ∧ isDigit c = true := by
    intro digits id hid
    obtain ⟨hnil, hall⟩ := digits_iff.mp hid.number
    obtain ⟨c, rest, rfl⟩ := List.exists_cons_of_ne_nil hnil
    exact ⟨c, rest, rfl, hall c List.mem_cons_self⟩
  cases h with
  | last hid => exact hdigits hid
  | next hid _ =>
      obtain ⟨c, rest, rfl, hc⟩ := hdigits hid
      exact ⟨c, _, rfl, hc⟩

theorem IsCount.not_blank {digits : List Char} {count : Int} (h : IsCount limit digits count) :
    ∀ c ∈ digits, isBlank c = false :=
  fun c hc => isBlank_of_isDigit ((digits_iff.mp h.number).2 c hc)

theorem WritesIds.passesThen {ids : List Int} (h : WritesIds limit ids list) :
    PassesThen list following := by
  induction h with
  | last hid => exact .plain hid.not_blank
  | @next id ids digits rest hid hrest ih =>
      obtain ⟨c, more, hparts, hc⟩ := hrest.front
      have hgap : PassesThen (' ' :: rest) following :=
        .space ⟨c, more, hparts, isBlank_of_isDigit hc⟩
          (by rw [hparts]; exact not_beginsKeyword_of_isDigit hc) ih
      have hcomma : PassesThen [','] (' ' :: rest ++ following) := .plain (by decide)
      have hlist : PassesThen (digits ++ ([','] ++ ' ' :: rest)) following :=
        .append (.plain hid.not_blank) (hcomma.append hgap)
      rwa [List.append_assoc]

theorem PassesThen.called {word : String} (hword : ∀ c ∈ word.toList, isBlank c = false)
    (h : PassesThen text (')' :: following)) : PassesThen (called word text) following := by
  have hopen : PassesThen ['('] (text ++ [')'] ++ following) := .plain (by decide)
  have hclose : PassesThen [')'] following := .plain (by decide)
  have hinner : PassesThen (text ++ [')']) following := h.append hclose
  exact .append (.plain hword) (hopen.append hinner)

theorem PassesThen.enclosed (h : PassesThen text (')' :: following)) :
    PassesThen (enclosed text) following := by
  have hopen : PassesThen ['('] (text ++ [')'] ++ following) := .plain (by decide)
  have hclose : PassesThen [')'] following := .plain (by decide)
  exact hopen.append (.append h hclose)

theorem WritesExpr.passesThen (h : WritesExpr limit e text)
    (hsayable : Expr.Sayable processes names e) (hfollowing : atWordEnd following = true) :
    PassesThen text following := by
  induction h generalizing following with
  | own hown =>
      have hplain : ∀ text ∈ ownWords, ∀ c ∈ text, isBlank c = false := by decide
      exact .plain (hplain _ hown)
  | parameter =>
      exact .plain fun c hc =>
        isBlank_of_isTokenChar (isTokenChar_of_identifier hsayable.2.identifier c hc)
  | literal hform _ =>
      exact .plain fun c hc => isBlank_of_isTokenChar (isTokenChar_of_numeral hform c hc)
  | @binary op left right l r hleft hright ihleft ihright =>
      have hsecond : PassesThen (' ' :: right) (')' :: following) :=
        .space (hright.placed hsayable.2).front
          (hright.not_beginsKeyword hsayable.2 rfl) (ihright hsayable.2 rfl)
      have hsign : PassesThen [' ', op.sign] (' ' :: right ++ ')' :: following) := by
        refine .space ⟨op.sign, [], rfl, ?_⟩ ?_ (.plain ?_)
        · cases op <;> decide
        · exact not_beginsKeyword_of_front (by cases op <;> decide)
        · cases op <;> decide
      have hfirst : PassesThen left ([' ', op.sign] ++ ' ' :: right ++ ')' :: following) :=
        ihleft hsayable.1 rfl
      have hbody : PassesThen (left ++ ([' ', op.sign] ++ ' ' :: right)) (')' :: following) :=
        hfirst.append (hsign.append hsecond)
      have hparts : left ++ [' '] ++ op.sign :: ([' '] ++ right) =
          left ++ ([' ', op.sign] ++ ' ' :: right) := by simp
      rw [hparts]
      exact hbody.enclosed
  | @aggregate how withOwn =>
      exact .called (by cases how <;> decide) (.plain (by cases withOwn <;> decide))
  | @aggregateFrom how ids withOwn list hids =>
      exact .called (by cases how <;> decide)
        (.called (by cases withOwn <;> decide) hids.passesThen)
  | other => exact .plain (by decide)
  | valueFrom hid => exact .called (by decide) (.plain hid.not_blank)

/-! ## Characters -/

/-- The characters of written texts: those of source texts, and digits of every
script in numerals. -/
def isWrittenChar (c : Char) : Bool :=
  isSourceChar c || isDigit c

/-- A text over these characters. -/
def IsWrittenText (text : List Char) : Prop :=
  ∀ c ∈ text, isWrittenChar c = true

theorem IsWrittenText.append_iff :
    IsWrittenText (text ++ rest) ↔ IsWrittenText text ∧ IsWrittenText rest :=
  List.forall_mem_append

theorem IsWrittenText.cons_iff :
    IsWrittenText (c :: text) ↔ isWrittenChar c = true ∧ IsWrittenText text :=
  List.forall_mem_cons

theorem IsSourceText.isWrittenText (h : IsSourceText text) : IsWrittenText text := by
  intro c hc
  rw [isWrittenChar, h c hc, Bool.true_or]

theorem IsNumeral.isWrittenText (h : IsNumeral text) : IsWrittenText text := by
  apply h.forall_mem fun c => isWrittenChar c = true
  · intro c hc
    rw [isWrittenChar, hc, Bool.or_true]
  · decide

theorem IsWrittenText.enclosed (h : IsWrittenText text) : IsWrittenText (enclosed text) := by
  have hclose : IsWrittenText [')'] := by
    show ∀ c ∈ [')'], isWrittenChar c = true
    decide
  exact IsWrittenText.cons_iff.mpr ⟨by decide, IsWrittenText.append_iff.mpr ⟨h, hclose⟩⟩

theorem WritesExpr.isWrittenText (h : WritesExpr limit e text)
    (hsayable : Expr.Sayable processes names e) : IsWrittenText text := by
  refine WritesExpr.induct (motive := fun _ text => IsWrittenText text) ?_ ?_ ?_ h hsayable
  · intro _ _ hform _
    exact IsNumeral.isWrittenText hform
  · intro _ _ _ htext _
    exact htext.isWrittenText
  · intro op _ _ left right hleft hright
    have hspace : IsWrittenText [' '] := by
      show ∀ c ∈ [' '], isWrittenChar c = true
      decide
    have hop : isWrittenChar op.sign = true := by cases op <;> decide
    have hsecond := IsWrittenText.cons_iff.mpr ⟨hop, IsWrittenText.append_iff.mpr ⟨hspace, hright⟩⟩
    have hfirst := IsWrittenText.append_iff.mpr ⟨hleft, hspace⟩
    exact (IsWrittenText.append_iff.mpr ⟨hfirst, hsecond⟩).enclosed

/-- The runs of capital letters beyond ASCII hold none of the runs of digits. -/
theorem capitalRuns_digitZeros :
    ∀ first ∈ digitZeros, ∀ run ∈ capitalRuns, run.last < first ∨ first + 10 ≤ run.first := by
  decide +kernel

theorem digitZeros_plain : ∀ first ∈ digitZeros, 0x3a3 < first := by
  decide +kernel

theorem exists_of_isDigit (hc : isDigit c = true) (hascii : ¬ c.toNat < 128) :
    ∃ first ∈ digitZeros, first ≤ c.toNat ∧ c.toNat < first + 10 := by
  rw [isDigit, digitValue?, if_neg hascii, Option.isSome_map, List.find?_isSome] at hc
  obtain ⟨first, hfirst, hrange⟩ := hc
  simp only [Bool.and_eq_true, decide_eq_true_eq] at hrange
  exact ⟨first, hfirst, hrange⟩

/-- A digit beyond ASCII is its own small form. -/
theorem lowerChar_digit (hc : isDigit c = true) (hascii : ¬ c.toNat < 128) :
    lowerChar c = [c] := by
  obtain ⟨first, hfirst, hrange⟩ := exists_of_isDigit hc hascii
  have hplain := digitZeros_plain first hfirst
  have hdotted : ¬ (c.toNat == 0x130) = true := by
    rw [beq_iff_eq]
    omega
  have hnone : (capitalRuns.find? fun run =>
      run.first ≤ c.toNat && c.toNat ≤ run.last && (c.toNat - run.first) % run.step == 0) =
        none := by
    rw [List.find?_eq_none]
    intro run hrun
    have hapart := capitalRuns_digitZeros first hfirst run hrun
    simp only [Bool.and_eq_true, decide_eq_true_eq]
    omega
  simp only [lowerChar, if_neg hascii, if_neg hdotted, hnone]

theorem lowerFrom_digit (hc : isDigit c = true) (before rest : List Char) :
    lowerFrom before (c :: rest) = c.toLower :: lowerFrom (c :: before) rest := by
  by_cases hascii : c.toNat < 128
  · have hor := forall_ascii (fun c => !isDigit c || isSourceChar c) (by decide) hascii
    exact lowerFrom_eq (by simpa [hc] using hor) before rest
  · obtain ⟨first, hfirst, hrange⟩ := exists_of_isDigit hc hascii
    have hplain := digitZeros_plain first hfirst
    have hsigma : ¬ (c.toNat == 0x3a3) = true := by
      rw [beq_iff_eq]
      omega
    have hsmall : c.toLower = c := toLower_eq_self (isUpper_of_isAlpha (isAlpha_of_isDigit hc))
    rw [lowerFrom, if_neg hsigma, lowerChar_digit hc hascii, hsmall, List.singleton_append]

theorem lower_written (h : IsWrittenText text) : lower text = text.map Char.toLower := by
  apply lower_eq_map
  intro c hc
  rcases Bool.or_eq_true_iff.mp (h c hc) with hsource | hdigit
  · exact lowerFrom_eq hsource
  · exact lowerFrom_digit hdigit

end LossyConsensus.Source
