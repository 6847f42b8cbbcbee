/-
# Written rules are read back

The first line of a written rule tells how it goes on: a line that opens a
conditional has nothing after its `then`, and every other line holds a whole
rule.  A block takes the lines of its branches, their own `end` lines among
them, and leaves what follows: by induction on the rule, for any lines that
follow.
-/

import LossyConsensus.Proofs.Source.Block
import LossyConsensus.Proofs.Source.WrittenPredicate

namespace LossyConsensus.Source

open LossyConsensus.Decimal LossyConsensus.Protocol LossyConsensus.Text

variable {limit : Option Nat} {processes : Nat} {names : List String} {v : Vocabulary}
  {p : Predicate Float} {e : Expr Float} {rule : Rule Float} {target : Target}
  {text word rest body following left right digits first : List Char}
  {lines : List (List Char)} {c : Char} {count : Int}

/-! ## The line that opens a conditional -/

/-- The search for `then` passes over a word between blanks that is no
keyword. -/
theorem PassesThen.joined {word : String}
    (hfront : ∃ c rest, word.toList = c :: rest ∧ c.toLower ∉ ['t', 'n'])
    (hplain : ∀ c ∈ word.toList, isBlank c = false)
    (hleft : PassesThen left (' ' :: (word.toList ++ ' ' :: right) ++ following))
    (hright : PassesThen (' ' :: right) following) :
    PassesThen (left ++ ' ' :: (word.toList ++ ' ' :: right)) following := by
  obtain ⟨c, rest, hword, hc⟩ := hfront
  have hblank : isBlank c = false := hplain c (by rw [hword]; exact List.mem_cons_self)
  have hgap : PassesThen (' ' :: word.toList) (' ' :: right ++ following) := by
    refine .space ⟨c, rest, hword, hblank⟩ ?_ (.plain hplain)
    rw [hword]
    exact not_beginsKeyword_of_front hc
  exact hleft.append (hgap.append hright)

/-- The search for `then` passes over a blank and a written predicate. -/
theorem WritesPredicate.passesThen_space (hp : WritesPredicate limit p text)
    (h : PassesThen text following) : PassesThen (' ' :: text) following := by
  obtain ⟨c, more, rfl, hc⟩ := hp.front
  have hother : ∀ c ∈ ['r', 's', '('], isBlank c = false ∧ c.toLower ∉ ['t', 'n'] := by decide
  exact .space ⟨c, more, rfl, (hother c hc).1⟩ (not_beginsKeyword_of_front (hother c hc).2) h

theorem WritesPredicate.passesThen (h : WritesPredicate limit p text)
    (hsayable : Predicate.Sayable processes names p) : PassesThen text following := by
  induction h generalizing following with
  | receivedAny => exact .plain (by decide)
  | receivedAll => exact .plain (by decide)
  | receivedMajority => exact .plain (by decide)
  | isLeader =>
      have hleader : PassesThen " leader".toList following :=
        .space ⟨'l', _, rfl, by decide⟩ (not_beginsKeyword_of_front (by decide))
          (.plain (by decide))
      have htext :
          PassesThen ("self".toList ++ ' ' :: ("is".toList ++ " leader".toList)) following :=
        .joined ⟨'i', _, rfl, by decide⟩ (by decide) (.plain (by decide)) hleader
      exact htext
  | receivedDiff => exact .plain (by decide)
  | receivedAtLeast hcount => exact .called (by decide) (.plain hcount.not_blank)
  | receivedFrom hid => exact .called (by decide) (.plain hid.not_blank)
  | @compare op _ _ left right hleft hright =>
      have hfront : ∃ c rest, op.sign.toList = c :: rest ∧ c.toLower ∉ ['t', 'n'] := by
        obtain ⟨c, rest, hsign, hc⟩ := exists_of_sign op
        have hother : ∀ c ∈ "<>=!".toList, c.toLower ∉ ['t', 'n'] := by decide
        exact ⟨c, rest, hsign, hother c hc⟩
      have hlast : PassesThen (' ' :: right) (')' :: following) :=
        .space (hright.placed hsayable.2).front (hright.not_beginsKeyword hsayable.2 rfl)
          (hright.passesThen hsayable.2 rfl)
      exact (PassesThen.joined hfront (by cases op <;> decide) (hleft.passesThen hsayable.1 rfl)
        hlast).enclosed
  | @conj _ _ left right hleft hright ihleft ihright =>
      have hparts : left ++ " and ".toList ++ right =
          left ++ ' ' :: ("and".toList ++ ' ' :: right) := by simp
      rw [hparts]
      exact (PassesThen.joined ⟨'a', _, rfl, by decide⟩ (by decide) (ihleft hsayable.1)
        (hright.passesThen_space (ihright hsayable.2))).enclosed
  | @disj _ _ left right hleft hright ihleft ihright =>
      have hparts : left ++ " or ".toList ++ right =
          left ++ ' ' :: ("or".toList ++ ' ' :: right) := by simp
      rw [hparts]
      exact (PassesThen.joined ⟨'o', _, rfl, by decide⟩ (by decide) (ihleft hsayable.1)
        (hright.passesThen_space (ihright hsayable.2))).enclosed
  | @neg _ operand hoperand ih =>
      have hnot : PassesThen "not".toList (' ' :: operand ++ ')' :: following) := .plain (by decide)
      have hbody : PassesThen ("not".toList ++ ' ' :: operand) (')' :: following) :=
        hnot.append (hoperand.passesThen_space (ih hsayable))
      exact hbody.enclosed

theorem conditionFrom_end {seen : List Char} (h : seen ≠ []) :
    conditionFrom seen " then".toList = some (seen.reverse, []) := by
  have hseen : ¬ seen.isEmpty = true := by rwa [List.isEmpty_iff]
  have hthen : afterThen? (' ' :: "then".toList) = some [] := by decide
  show conditionFrom seen (' ' :: "then".toList) = _
  rw [conditionFrom, if_neg hseen, hthen]

/-- The line that opens a conditional has its predicate as the condition and no
body. -/
theorem ifThen?_ifLine (hp : WritesPredicate limit p text)
    (hsayable : Predicate.Sayable processes names p) : ifThen? (ifLine text) = some (text, []) := by
  obtain ⟨c, more, hparts, hc⟩ := hp.front
  have hblank : ∀ c ∈ ['r', 's', '('], isBlank c = false := by decide
  have hafter : afterAnyCase? "if".toList (ifLine text) =
      some (' ' :: (text ++ " then".toList)) := by
    rfl
  have hgap : (' ' :: (text ++ " then".toList)).takeWhile isBlank = [' '] := by
    rw [hparts, List.cons_append, List.takeWhile_cons_of_pos (by decide),
      List.takeWhile_cons_of_neg (by simp [hblank c hc])]
  have hcondition : conditionFrom [] (text ++ " then".toList) = some (text, []) := by
    rw [hp.passesThen hsayable [], List.append_nil, conditionFrom_end (by simpa using hp.ne_nil),
      List.reverse_reverse]
  have hrange : List.range 1 = [0] := rfl
  simp only [ifThen?, hafter, Option.bind_eq_bind, Option.bind_some, hgap, List.length_singleton,
    hrange, List.findSome?_cons, Nat.sub_zero, List.drop_succ_cons, List.drop_zero, hcondition]

/-! ## Rules on one line -/

/-- A trimmed line that is no conditional is read as a rule without one. -/
theorem readRule_of_trimmed (htrim : Trimmed text) (hif : ifThen? text = none) :
    readRule v text = readSimpleRule v text := by
  have hempty : ¬ text.isEmpty = true := by
    rw [List.isEmpty_iff]
    exact htrim.ne_nil
  rw [readRule, htrim.trim_self, if_neg hempty]
  split
  · rfl
  · next condition rest hsome =>
    rw [hif] at hsome
    cases hsome

/-- A word is found where it stands first, if the text before it does not contain
its first character. -/
theorem cutFrom_eq_some {front : Char} {seen : List Char} (h : front ∉ left) :
    cutFrom (front :: word) seen (left ++ front :: (word ++ right)) =
      some (seen.reverse ++ left, right) := by
  induction left generalizing seen with
  | nil =>
      have hafter : after? (front :: word) (front :: (word ++ right)) = some right :=
        after?_append (front :: word) right
      rw [List.nil_append, cutFrom, hafter, List.append_nil]
  | cons c left ih =>
      rw [List.mem_cons, not_or] at h
      have hafter : after? (front :: word) (c :: (left ++ front :: (word ++ right))) = none := by
        rw [after?, if_neg (by simpa using h.1)]
      rw [List.cons_append, cutFrom, hafter]
      dsimp only
      rw [ih h.2, List.reverse_cons, List.append_assoc, List.singleton_append]

/-- A word is not found in a text without its first character. -/
theorem cutFrom_eq_none {front : Char} {seen : List Char} (h : front ∉ text) :
    cutFrom (front :: word) seen text = none := by
  induction text generalizing seen with
  | nil => rfl
  | cons c text ih =>
      rw [List.mem_cons, not_or] at h
      have hafter : after? (front :: word) (c :: text) = none := by
        rw [after?, if_neg (by simpa using h.1)]
      rw [cutFrom, hafter]
      exact ih h.2

/-- The text of an assignment. -/
def assigned (left : List Char) (arrow : String) (right : List Char) : List Char :=
  left ++ ' ' :: (arrow.toList ++ ' ' :: right)

theorem WritesTarget.cases (h : WritesTarget target left) :
    left ∈ ["x", "xᵢ", "x_i", "x[i]"].map String.toList := by
  cases h with
  | plain => decide
  | indexed hindex => exact List.mem_cons_of_mem _ hindex

theorem WritesTarget.plain_chars (h : WritesTarget target left) :
    ∀ c ∈ left ++ [' '], c ≠ '←' ∧ c ≠ '<' := by
  have hall : ∀ left ∈ ["x", "xᵢ", "x_i", "x[i]"].map String.toList,
      ∀ c ∈ left ++ [' '], c ≠ '←' ∧ c ≠ '<' := by decide
  exact hall left h.cases

theorem WritesTarget.front (h : WritesTarget target left) : ∃ rest, left = 'x' :: rest := by
  have hmem := h.cases
  simp only [List.map_cons, List.map_nil, List.mem_cons, List.not_mem_nil, or_false] at hmem
  rcases hmem with rfl | rfl | rfl | rfl
  · exact ⟨[], rfl⟩
  · exact ⟨['ᵢ'], rfl⟩
  · exact ⟨['_', 'i'], rfl⟩
  · exact ⟨['[', 'i', ']'], rfl⟩

/-- A written target is read as the target. -/
theorem WritesTarget.readTarget (h : WritesTarget target left) :
    readTarget (rulesVocabulary processes names) (trim (left ++ [' '])) = .ok target := by
  cases h with
  | plain => rfl
  | indexed hindex =>
      simp only [List.map_cons, List.map_nil, List.mem_cons, List.not_mem_nil, or_false] at hindex
      rcases hindex with rfl | rfl | rfl
      · rfl
      · rfl
      · rfl

theorem assignment?_assigned {arrow : String} (htarget : WritesTarget target left)
    (harrow : arrow ∈ ["←", "<-"]) (hright : IsWrittenText right) :
    assignment? (assigned left arrow right) = some (left ++ [' '], ' ' :: right) := by
  have hfound : ∀ {front : Char} {word : List Char}, front ∉ left ++ [' '] →
      cutFrom (front :: word) [] ((left ++ [' ']) ++ front :: (word ++ ' ' :: right)) =
        some (left ++ [' '], ' ' :: right) :=
    fun hfront => cutFrom_eq_some hfront
  simp only [List.mem_cons, List.not_mem_nil, or_false] at harrow
  rcases harrow with rfl | rfl
  · have hparts : assigned left "←" right = (left ++ [' ']) ++ '←' :: ([] ++ ' ' :: right) := by
      simp [assigned]
    have hcut : cut? ['←'] (assigned left "←" right) = some (left ++ [' '], ' ' :: right) := by
      rw [cut?, hparts]
      exact hfound fun hmem => (htarget.plain_chars _ hmem).1 rfl
    exact congrArg (· <|> cut? "<-".toList (assigned left "←" right)) hcut
  · have hparts : assigned left "<-" right = (left ++ [' ']) ++ '<' :: (['-'] ++ ' ' :: right) := by
      simp [assigned]
    have hnone : cut? ['←'] (assigned left "<-" right) = none := by
      apply cutFrom_eq_none
      rw [hparts]
      intro hmem
      rcases List.mem_append.mp hmem with hmem | hmem
      · exact (htarget.plain_chars _ hmem).1 rfl
      · have hrest : '←' ∈ right := by simpa using hmem
        exact absurd (hright '←' hrest) (by decide)
    have hcut :
        cut? ['<', '-'] (assigned left "<-" right) = some (left ++ [' '], ' ' :: right) := by
      rw [cut?, hparts]
      exact hfound fun hmem => (htarget.plain_chars _ hmem).2 rfl
    have heither : (cut? ['←'] (assigned left "<-" right) <|>
        cut? ['<', '-'] (assigned left "<-" right)) = some (left ++ [' '], ' ' :: right) := by
      rw [hnone, hcut]
      rfl
    exact heither

theorem readRule_assigned {arrow : String} (htarget : WritesTarget target left)
    (harrow : arrow ∈ ["←", "<-"]) (hvalue : WritesExpr (some digitLimit) e right)
    (hsayable : Expr.Sayable processes names e) :
    readRule (rulesVocabulary processes names) (assigned left arrow right) =
      .ok (.assign target e) := by
  obtain ⟨more, hleft⟩ := htarget.front
  have htrim : Trimmed (assigned left arrow right) := by
    constructor
    · exact ⟨'x', _, by rw [hleft]; rfl, by decide⟩
    · obtain ⟨init, c, hparts, hc⟩ := (hvalue.placed hsayable).trimmed.back
      exact ⟨left ++ ' ' :: (arrow.toList ++ ' ' :: init), c, by simp [assigned, hparts], hc⟩
  have hif : ifThen? (assigned left arrow right) = none := by
    rw [hleft]
    rfl
  have hdifferent : differentArguments? (assigned left arrow right) = none := by
    rw [hleft]
    rfl
  have hread := (readExpr_after_space (hvalue.placed hsayable).trimmed).trans
    (hvalue.readExpr hsayable)
  rw [readRule_of_trimmed htrim hif, readSimpleRule, hdifferent]
  dsimp only
  rw [assignment?_assigned htarget harrow (hvalue.isWrittenText hsayable)]
  dsimp only
  rw [htarget.readTarget, hread]
  rfl

theorem readRule_combine (how : Combination) :
    readRule (rulesVocabulary processes names) how.word.toList = .ok (.combine how) := by
  have hword : IsWordOf how.word how.word.toList := by
    show how.word.toList.map Char.toLower = how.word.toList
    cases how <;> decide
  have htrim := hword.trimmed (by cases how <;> decide) (by cases how <;> decide)
  rw [readRule_of_trimmed htrim (by cases how <;> rfl)]
  cases how <;> rfl

/-- The text of a choice by received difference. -/
def chosen (different same : List Char) : List Char :=
  called "IF_RECEIVED_DIFF_THEN" (different ++ ", ".toList ++ same)

/-- Two solid texts with a comma between them are divided there. -/
theorem splitOutside_pair (hleft : Solid left) (hright : Solid right) (htrimLeft : Trimmed left)
    (htrimRight : Trimmed right) :
    splitOutside ',' (left ++ ", ".toList ++ right) = [left, right] := by
  have hother : ∀ c, isTokenChar c = true → id c ≠ ',' := by
    rintro c hc rfl
    cases hc
  have hblank : Passes id [','] [' '] (right ++ []) := .of_balanced (.plain rfl rfl) (by decide)
  have hsecond : Passes id [','] (' ' :: right) [] := hblank.append (hright.passes hother)
  have hfirst : Passes id [','] left (',' :: ([] ++ ' ' :: right)) := hleft.passes hother
  have hcut := hfirst.eq_some rfl rfl (List.map_id _)
  have hnone := hsecond.eq_none
  rw [List.map_id] at hcut hnone
  have hparts : left ++ ", ".toList ++ right = left ++ ',' :: ([] ++ ' ' :: right) := by simp
  rw [splitOutside, hparts, splitOutsideFrom_eq rfl rfl, hcut]
  dsimp only
  rw [splitOutsideFrom_eq rfl rfl, hnone]
  simp only [List.reverse_nil, List.nil_append, List.map_cons, List.map_nil, htrimLeft.trim_self,
    trim_after_space htrimRight]

theorem isOneLine_written (h : IsWrittenText text) : isOneLine text = true := by
  rw [isOneLine, Bool.not_eq_true', Bool.eq_false_iff, Ne, List.contains_iff_mem]
  intro hmem
  exact absurd (h '\n' hmem) (by decide)

section Chosen

variable {d s : Expr Float} {different same : List Char}
  (hdifferent : WritesExpr limit d different) (hsame : WritesExpr limit s same)
  (hd : Expr.Sayable processes names d) (hs : Expr.Sayable processes names s)
include hdifferent hsame hd hs

theorem isWrittenText_pair : IsWrittenText (different ++ ", ".toList ++ same) := by
  have hcomma : ∀ c ∈ ", ".toList, isWrittenChar c = true := by decide
  exact IsWrittenText.append_iff.mpr
    ⟨IsWrittenText.append_iff.mpr ⟨hdifferent.isWrittenText hd, hcomma⟩, hsame.isWrittenText hs⟩

theorem differentArguments?_chosen :
    differentArguments? (chosen different same) = some [different, same] := by
  have hcall : call? "if_received_diff_then" (chosen different same) =
      some ("IF_RECEIVED_DIFF_THEN".toList, different ++ ", ".toList ++ same) := by
    have hafter : afterAnyCase? "if_received_diff_then".toList (chosen different same) =
        some (enclosed (different ++ ", ".toList ++ same)) := rfl
    have hargument : parenthesised? (enclosed (different ++ ", ".toList ++ same)) =
        some (different ++ ", ".toList ++ same) := parenthesised?_eq_some_iff.mpr rfl
    have hround : trimLeft (enclosed (different ++ ", ".toList ++ same)) =
        enclosed (different ++ ", ".toList ++ same) := trimLeft_cons (by decide)
    simp only [call?, hafter, Option.bind_eq_bind, Option.bind_some, hround, hargument]
    rfl
  have hline := isOneLine_written (isWrittenText_pair hdifferent hsame hd hs)
  have hsplit := splitOutside_pair (hdifferent.solid hd) (hsame.solid hs)
    (hdifferent.placed hd).trimmed (hsame.placed hs).trimmed
  rw [differentArguments?, hcall, Option.filter_some, hline, if_pos rfl, Option.map_some, hsplit]

end Chosen

theorem readRule_chosen {d s : Expr Float} {different same : List Char}
    (hdifferent : WritesExpr (some digitLimit) d different)
    (hsame : WritesExpr (some digitLimit) s same) (hd : Expr.Sayable processes names d)
    (hs : Expr.Sayable processes names s) :
    readRule (rulesVocabulary processes names) (chosen different same) =
      .ok (.ifDifferent d s) := by
  have htrim : Trimmed (chosen different same) :=
    ⟨⟨'I', _, rfl, by decide⟩, ⟨_, ')', called_eq _ _, by decide⟩⟩
  have hempty : ∀ {text : List Char}, Trimmed text → text.isEmpty = false := by
    intro text h
    rw [List.isEmpty_eq_false_iff]
    exact h.ne_nil
  rw [readRule_of_trimmed htrim rfl, readSimpleRule,
    differentArguments?_chosen hdifferent hsame hd hs]
  dsimp only
  rw [hempty (hdifferent.placed hd).trimmed, hempty (hsame.placed hs).trimmed, Bool.or_false,
    if_neg Bool.false_ne_true, hdifferent.readExpr hd, hsame.readExpr hs]
  rfl

/-! ## Blocks -/

/-- The first characters of the lines that begin a written rule. -/
def ruleFronts : List Char :=
  ['x', 'a', 'm', 'I', 'i']

theorem WritesRule.front (h : WritesRule limit rule lines) :
    ∃ c text following, lines = (c :: text) :: following ∧ c ∈ ruleFronts := by
  cases h with
  | assign htarget _ _ =>
      obtain ⟨more, rfl⟩ := htarget.front
      exact ⟨'x', _, [], rfl, by decide⟩
  | @combine how =>
      cases how with
      | average => exact ⟨'a', _, [], rfl, by decide⟩
      | min => exact ⟨'m', _, [], rfl, by decide⟩
      | max => exact ⟨'m', _, [], rfl, by decide⟩
      | midpoint => exact ⟨'m', _, [], rfl, by decide⟩
  | ifDifferent _ _ => exact ⟨'I', _, [], rfl, by decide⟩
  | onlyIf _ _ => exact ⟨'i', _, _, rfl, by decide⟩
  | choose _ _ _ => exact ⟨'i', _, _, rfl, by decide⟩

/-- No line that begins a written rule continues or closes a block. -/
theorem isBlockKeyword_front (hc : c ∈ ruleFronts) : isBlockKeyword (c :: text) = false := by
  have hother : ∀ c ∈ ruleFronts, c ≠ 'e' := by decide
  exact isBlockKeyword_cons (hother c hc)

theorem WritesRule.fresh (h : WritesRule limit rule (first :: lines)) :
    isBlockKeyword first = false := by
  obtain ⟨c, text, following, hlines, hc⟩ := h.front
  rw [(List.cons.inj hlines).1]
  exact isBlockKeyword_front hc

/-- A line that holds a whole rule is a block. -/
theorem blockReads_line (hif : ifThen? text = none)
    (hthen : startsWith "if ".toList (lower text) = false)
    (hrule : readRule v text = .ok rule) (following : List (List Char)) :
    BlockReads v text following rule following :=
  .single (by simp [hif]) (fun _ => hthen) hrule

/-- No text that begins with another letter begins as a conditional. -/
theorem startsWith_if_of_front (hc : isSourceChar c = true) (hother : c.toLower ≠ 'i') :
    startsWith "if ".toList (lower (c :: text)) = false := by
  rw [lower, lowerFrom_eq hc, Bool.eq_false_iff, Ne, startsWith_iff]
  intro hbegins
  exact hother (List.cons_prefix_cons.mp hbegins).1.symm

/-- The lines of a written rule are a block that leaves exactly what follows. -/
theorem WritesRule.blockReads (h : WritesRule (some digitLimit) rule lines)
    (hsayable : Rule.Sayable processes names rule) (rest : List (List Char)) :
    ∃ first following, lines = first :: following ∧
      BlockReads (rulesVocabulary processes names) first (following ++ rest) rule rest := by
  -- What follows a branch begins with the line that closes or continues its block.
  induction h generalizing rest with
  | @assign target value left right arrow htarget harrow hvalue =>
      obtain ⟨more, hleft⟩ := htarget.front
      have hread := readRule_assigned htarget harrow hvalue hsayable.2
      refine ⟨_, [], rfl, blockReads_line ?_ ?_ hread rest⟩
      · rw [assigned, hleft]
        rfl
      · rw [assigned, hleft]
        exact startsWith_if_of_front (by decide) (by decide)
  | @combine how =>
      exact ⟨_, [], rfl,
        blockReads_line (by cases how <;> rfl) (by cases how <;> rfl) (readRule_combine how) rest⟩
  | @ifDifferent d s different same hdifferent hsame =>
      have hread := readRule_chosen hdifferent hsame hsayable.1 hsayable.2
      have hword : ∀ c ∈ "IF_RECEIVED_DIFF_THEN".toList, isWrittenChar c = true := by decide
      have hwritten : IsWrittenText (chosen different same) := IsWrittenText.append_iff.mpr
        ⟨hword, (isWrittenText_pair hdifferent hsame hsayable.1 hsayable.2).enclosed⟩
      have hthen : startsWith "if ".toList (lower (chosen different same)) = false := by
        rw [lower_written hwritten]
        rfl
      exact ⟨_, [], rfl, blockReads_line rfl hthen hread rest⟩
  | @onlyIf condition rule text lines hcondition hrule ih =>
      obtain ⟨next, following, rfl, hblock⟩ := ih hsayable.2 ("end".toList :: rest)
      have hread := hblock.closed (ifThen?_ifLine hcondition hsayable.1)
        (hcondition.readPredicate hsayable.1) hrule.fresh
      refine ⟨_, _, rfl, ?_⟩
      simpa using hread
  | @choose condition yes no text linesYes linesNo hcondition hyes hno ihyes ihno =>
      obtain ⟨other, afterwards, rfl, hblockNo⟩ := ihno hsayable.2.2 ("end".toList :: rest)
      obtain ⟨next, following, rfl, hblockYes⟩ := ihyes hsayable.2.1
        ("else".toList :: other :: (afterwards ++ "end".toList :: rest))
      have hread := BlockReads.ifElse (ifThen?_ifLine hcondition hsayable.1)
        (hcondition.readPredicate hsayable.1) hyes.fresh hblockYes hno.fresh hblockNo
      refine ⟨_, _, rfl, ?_⟩
      simpa [afterEnd] using hread

end LossyConsensus.Source
