/-
# Written phases are read back

The header of a written phase tells its kind and its rounds and has no rule on
its line, and the block below it ends where the next header begins.  No written
line opens a section or is passed over.  So an UPDATE RULE section with written
phases holds exactly these phases.
-/

import LossyConsensus.Proofs.Source.Edit
import LossyConsensus.Proofs.Source.WrittenRule

namespace LossyConsensus.Source

open LossyConsensus.Decimal LossyConsensus.Protocol LossyConsensus.Text

variable {limit : Option Nat} {processes : Nat} {names : List String} {kind : PhaseKind}
  {after : Option Int} {header line text rest digits : List Char} {lines written : List (List Char)}
  {rule : Rule Float} {target : Target} {p : Predicate Float} {e : Expr Float}
  {phases : List (Phase Float)} {count : Int}

/-! ## Headers of phases -/

theorem number?_append (hnumber : isNumber digits = true)
    (hrest : ∀ c ∈ rest.head?, isDigit c = false) :
    number? (digits ++ rest) = some (digits, rest) := by
  obtain ⟨hnil, hdigits⟩ := digits_iff.mp hnumber
  have hempty : ¬ digits.isEmpty = true := by rwa [List.isEmpty_iff]
  rw [number?, takeWhile_run hdigits hrest, dropWhile_run hdigits hrest]
  exact if_neg hempty

/-- The line of a header that waits for a number of rounds. -/
def afterLine (digits : List Char) : List Char :=
  "AFTER ".toList ++ digits ++ " ROUNDS:".toList

theorem afterHeader?_afterLine (h : isNumber digits = true) :
    afterHeader? (afterLine digits) = some (digits, []) := by
  have hword : after? "AFTER".toList (afterLine digits) =
      some (' ' :: (digits ++ " ROUNDS:".toList)) := rfl
  have hgap : blanks? (' ' :: (digits ++ " ROUNDS:".toList)) =
      some (digits ++ " ROUNDS:".toList) := by
    have htrim := (trimmed_of_isNumber h).trimLeft_eq " ROUNDS:".toList
    rw [blanks?, if_pos (by decide), htrim]
  have hstop : ∀ c ∈ " ROUNDS:".toList.head?, isDigit c = false := by
    intro c hc
    obtain rfl : ' ' = c := Option.some.inj hc
    decide
  have hnumber : number? (digits ++ " ROUNDS:".toList) = some (digits, " ROUNDS:".toList) :=
    number?_append h hstop
  rw [afterHeader?]
  exact Option.bind_eq_some_iff.mpr ⟨_, hword, Option.bind_eq_some_iff.mpr
    ⟨_, hgap, Option.bind_eq_some_iff.mpr ⟨_, hnumber, rfl⟩⟩⟩

/-- A written header is read as the header it is, with nothing after its
colon. -/
theorem WritesHeader.phaseHeader?_eq (h : WritesHeader (some digitLimit) kind after header) :
    phaseHeader? (0, header) = .ok (some { kind, after, rest := [] }) := by
  cases h with
  | eachRound => rfl
  | firstRound => rfl
  | @afterRounds count digits hcount =>
      have heach : keyword? "EACH ROUND" (afterLine digits) = none := rfl
      have hfirst : keyword? "FIRST ROUND" (afterLine digits) = none := rfl
      show phaseHeader? (0, afterLine digits) = _
      simp only [phaseHeader?, heach, hfirst, afterHeader?_afterLine hcount.number]
      rw [hcount.readNumber_eq, hcount.value]
      rfl
  | untilConsensus => rfl
  | atEnd => rfl

/-! ## Sequences of phases -/

/-- The lines of written phases are read as these phases, if no END phase
follows another. -/
theorem WritesPhases.phasesRead (h : WritesPhases (some digitLimit) phases lines)
    (hsayable : ∀ phase ∈ phases, Phase.Sayable processes names phase) {ended : Bool}
    (hend : phases.countP Phase.isEnd + ended.toNat ≤ 1) :
    PhasesRead (rulesVocabulary processes names) ended lines phases := by
  induction h generalizing ended with
  | nil => exact .nil
  | @cons kind after rule phases header lines rest hheader hrule hrest ih =>
      rw [List.forall_mem_cons] at hsayable
      obtain ⟨first, following, rfl, hblock⟩ := hrule.blockReads hsayable.1.rule rest
      have hends : phases.countP Phase.isEnd + (kind == .atEnd).toNat + ended.toNat ≤ 1 := by
        rw [List.countP_cons, Phase.isEnd] at hend
        cases hkind : kind == .atEnd <;> simpa [hkind] using hend
      have hfirst : kind = .atEnd → ended = false := by
        rintro rfl
        cases ended with
        | false => rfl
        | true =>
            simp only [beq_self_eq_true, Bool.toNat_true] at hends
            omega
      have hphases : PhasesRead (rulesVocabulary processes names) (ended || kind == .atEnd) rest
          phases := by
        refine ih hsayable.2 (Nat.le_trans ?_ hends)
        rw [Nat.add_assoc, Nat.add_comm _ ended.toNat]
        exact Nat.add_le_add_left (by cases ended <;> cases kind == .atEnd <;> decide) _
      exact .onNextLine hheader.phaseHeader?_eq hfirst rfl hrule.fresh hblock hphases

/-! ## Written lines -/

/-- How the lines of written phases begin. -/
def lineFronts : List String :=
  ["x", "average", "min", "max", "midpoint", "IF_RECEIVED_DIFF_THEN", "if ", "else", "end",
    "EACH ROUND:", "FIRST ROUND:", "AFTER ", "UNTIL CONSENSUS:", "END:"]

/-- A line as they stand in written phases: it begins as one of them, it does not
end with a blank, and it holds no line end. -/
structure IsWrittenLine (line : List Char) : Prop where
  front : ∃ front ∈ lineFronts, front.toList <+: line
  back : ∃ init c, line = init ++ [c] ∧ isBlank c = false
  whole : ∀ c ∈ line, isLineEnd c = false

/-- No written line opens a section. -/
theorem IsWrittenLine.header?_eq_none (h : IsWrittenLine line) : header? line = none := by
  obtain ⟨front, hfront, rest, rfl⟩ := h.front
  simp only [lineFronts, List.mem_cons, List.not_mem_nil, or_false] at hfront
  rcases hfront with
    rfl | rfl | rfl | rfl | rfl | rfl | rfl | rfl | rfl | rfl | rfl | rfl | rfl | rfl <;> rfl

/-- A written line begins with a character, which is no blank and no number
sign. -/
theorem IsWrittenLine.exists_cons (h : IsWrittenLine line) :
    ∃ c rest, line = c :: rest ∧ isBlank c = false ∧ c ≠ '#' := by
  obtain ⟨front, hfront, rest, rfl⟩ := h.front
  have hall : ∀ front ∈ lineFronts,
      front.toList.head?.any (fun c => !isBlank c && c != '#') = true := by
    decide
  have hfirst := hall front hfront
  cases hchars : front.toList with
  | nil =>
      rw [hchars] at hfirst
      cases hfirst
  | cons c more =>
      rw [hchars] at hfirst
      exact ⟨c, more ++ rest, rfl, by simpa using hfirst⟩

theorem IsWrittenLine.trimmed (h : IsWrittenLine line) : Trimmed line := by
  obtain ⟨c, rest, hline, hc, _⟩ := h.exists_cons
  exact ⟨⟨c, rest, hline, hc⟩, h.back⟩

/-- Written lines are the contents of the text that has them as its lines. -/
theorem contents_written (h : ∀ line ∈ written, IsWrittenLine line) :
    contents written = written := by
  induction written with
  | nil => rfl
  | cons line written ih =>
      rw [List.forall_mem_cons] at h
      obtain ⟨c, rest, hline, _, hc⟩ := h.1.exists_cons
      have htrim := h.1.trimmed.trim_self
      have hnil : trim line ≠ [] := by
        rw [htrim, hline]
        exact List.cons_ne_nil c rest
      have hcomment : ∀ comment, trim line ≠ '#' :: comment := by
        intro comment heq
        rw [htrim, hline] at heq
        exact hc (List.cons.inj heq).1
      rw [contents_cons hnil hcomment, htrim, ih h.2]

/-! ## Written lines of rules and headers -/

theorem isLineEnd_of_isWrittenChar {c : Char} (h : isWrittenChar c = true) :
    isLineEnd c = false := by
  rw [isWrittenChar, Bool.or_eq_true] at h
  rcases h with hc | hc
  · have hnot := forall_isSourceChar (fun c => !isLineEnd c) (by decide) (by decide) hc
    simpa using hnot
  · have hblank : isLineEnd c = true → isBlank c = true := by
      simp only [isLineEnd, isBlank, Bool.or_eq_true, Bool.and_eq_true, decide_eq_true_eq,
        beq_iff_eq]
      omega
    rw [isBlank_of_isDigit hc] at hblank
    simpa using hblank

theorem IsWrittenText.whole (h : IsWrittenText text) : ∀ c ∈ text, isLineEnd c = false :=
  fun c hc => isLineEnd_of_isWrittenChar (h c hc)

theorem isWrittenLine_assigned {arrow : String} (htarget : WritesTarget target text)
    (harrow : arrow ∈ ["←", "<-"]) (hvalue : WritesExpr limit e rest)
    (hsayable : Expr.Sayable processes names e) : IsWrittenLine (assigned text arrow rest) := by
  obtain ⟨more, hleft⟩ := htarget.front
  obtain ⟨init, c, hparts, hc⟩ := (hvalue.placed hsayable).trimmed.back
  refine ⟨⟨"x", by decide, ?_⟩, ⟨text ++ ' ' :: (arrow.toList ++ ' ' :: init), c, ?_, hc⟩, ?_⟩
  · rw [assigned, hleft]
    exact List.prefix_append ['x'] _
  · simp [assigned, hparts]
  · have htext : ∀ text ∈ ["x", "xᵢ", "x_i", "x[i]"].map String.toList,
        ∀ c ∈ text ++ [' '], isLineEnd c = false := by
      decide
    have hsign : ∀ arrow ∈ ["←", "<-"], ∀ c ∈ arrow.toList ++ [' '], isLineEnd c = false := by
      decide
    have hline :
        assigned text arrow rest = (text ++ [' ']) ++ ((arrow.toList ++ [' ']) ++ rest) := by
      simp [assigned]
    rw [hline]
    exact List.forall_mem_append.mpr ⟨htext text htarget.cases, List.forall_mem_append.mpr
      ⟨hsign arrow harrow, (hvalue.isWrittenText hsayable).whole⟩⟩

theorem isWrittenLine_ifLine (hp : WritesPredicate limit p text)
    (hsayable : Predicate.Sayable processes names p) : IsWrittenLine (ifLine text) := by
  have hif : IsWrittenText "if ".toList := by
    show ∀ c ∈ "if ".toList, isWrittenChar c = true
    decide
  have hthen : IsWrittenText " then".toList := by
    show ∀ c ∈ " then".toList, isWrittenChar c = true
    decide
  refine ⟨⟨"if ", by decide, ?_⟩, ⟨"if ".toList ++ text ++ " the".toList, 'n', ?_, by decide⟩, ?_⟩
  · rw [ifLine, List.append_assoc]
    exact List.prefix_append _ _
  · simp [ifLine]
  · exact IsWrittenText.whole (IsWrittenText.append_iff.mpr
      ⟨IsWrittenText.append_iff.mpr ⟨hif, hp.isWrittenText hsayable⟩, hthen⟩)

/-- The word of a line that is nothing else. -/
theorem isWrittenLine_word {word : String} (hfront : word ∈ lineFronts)
    (hback : word.toList.getLast?.any (fun c => !isBlank c) = true)
    (hwhole : ∀ c ∈ word.toList, isLineEnd c = false) : IsWrittenLine word.toList := by
  refine ⟨⟨word, hfront, List.prefix_refl _⟩, ?_, hwhole⟩
  obtain ⟨c, hlast, hc⟩ := (Option.any_eq_true _ _).mp hback
  obtain ⟨init, hinit⟩ := List.getLast?_eq_some_iff.mp hlast
  exact ⟨init, c, hinit, by simpa using hc⟩

/-- The lines of a written rule are written lines. -/
theorem WritesRule.isWrittenLine (h : WritesRule limit rule lines)
    (hsayable : Rule.Sayable processes names rule) : ∀ line ∈ lines, IsWrittenLine line := by
  have hend : IsWrittenLine "end".toList := isWrittenLine_word (by decide) (by decide) (by decide)
  have helse : IsWrittenLine "else".toList := isWrittenLine_word (by decide) (by decide) (by decide)
  induction h with
  | assign htarget harrow hvalue =>
      exact List.forall_mem_singleton.mpr (isWrittenLine_assigned htarget harrow hvalue hsayable.2)
  | @combine how =>
      exact List.forall_mem_singleton.mpr
        (isWrittenLine_word (by cases how <;> decide) (by cases how <;> decide)
          (by cases how <;> decide))
  | @ifDifferent d s different same hdifferent hsame =>
      have hpair := (isWrittenText_pair hdifferent hsame hsayable.1 hsayable.2).enclosed
      have hword : ∀ c ∈ "IF_RECEIVED_DIFF_THEN".toList, isLineEnd c = false := by decide
      refine List.forall_mem_singleton.mpr
        ⟨⟨"IF_RECEIVED_DIFF_THEN", by decide, List.prefix_append _ _⟩,
          ⟨_, ')', called_eq _ _, by decide⟩, List.forall_mem_append.mpr ⟨hword, hpair.whole⟩⟩
  | onlyIf hcondition _ ih =>
      refine List.forall_mem_cons.mpr ⟨isWrittenLine_ifLine hcondition hsayable.1, ?_⟩
      exact List.forall_mem_append.mpr ⟨ih hsayable.2, List.forall_mem_singleton.mpr hend⟩
  | choose hcondition _ _ ihyes ihno =>
      refine List.forall_mem_cons.mpr ⟨isWrittenLine_ifLine hcondition hsayable.1, ?_⟩
      refine List.forall_mem_append.mpr ⟨ihyes hsayable.2.1, List.forall_mem_cons.mpr ⟨helse, ?_⟩⟩
      exact List.forall_mem_append.mpr ⟨ihno hsayable.2.2, List.forall_mem_singleton.mpr hend⟩

theorem WritesHeader.isWrittenLine (h : WritesHeader limit kind after header) :
    IsWrittenLine header := by
  cases h with
  | eachRound => exact isWrittenLine_word (by decide) (by decide) (by decide)
  | firstRound => exact isWrittenLine_word (by decide) (by decide) (by decide)
  | @afterRounds count digits hcount =>
      have hafter : ∀ c ∈ "AFTER ".toList, isLineEnd c = false := by decide
      have hrounds : ∀ c ∈ " ROUNDS:".toList, isLineEnd c = false := by decide
      refine ⟨⟨"AFTER ", by decide, ?_⟩, ⟨"AFTER ".toList ++ digits ++ " ROUNDS".toList, ':', ?_,
        by decide⟩, ?_⟩
      · rw [List.append_assoc]
        exact List.prefix_append _ _
      · simp
      · exact List.forall_mem_append.mpr ⟨List.forall_mem_append.mpr
          ⟨hafter, hcount.source.isWrittenText.whole⟩, hrounds⟩
  | untilConsensus => exact isWrittenLine_word (by decide) (by decide) (by decide)
  | atEnd => exact isWrittenLine_word (by decide) (by decide) (by decide)

theorem WritesPhases.isWrittenLine (h : WritesPhases limit phases lines)
    (hsayable : ∀ phase ∈ phases, Phase.Sayable processes names phase) :
    ∀ line ∈ lines, IsWrittenLine line := by
  induction h with
  | nil => exact fun line hline => absurd hline List.not_mem_nil
  | cons hheader hrule _ ih =>
      rw [List.forall_mem_cons] at hsayable
      refine List.forall_mem_cons.mpr ⟨hheader.isWrittenLine, ?_⟩
      exact List.forall_mem_append.mpr ⟨hrule.isWrittenLine hsayable.1.rule, ih hsayable.2⟩

/-! ## The section -/

/-- The lines of an UPDATE RULE section. -/
def updateSection (written : List (List Char)) : List (List Char) :=
  "UPDATE RULE:".toList :: written

/-- The lines of a section with written phases hold something each. -/
theorem WritesPhases.contents_eq (h : WritesPhases limit phases written)
    (hsayable : ∀ phase ∈ phases, Phase.Sayable processes names phase) :
    contents (updateSection written) = updateSection written := by
  have hheader : header? (trim "UPDATE RULE:".toList) = some (.updateRule, []) := rfl
  rw [updateSection, contents_cons_of_header hheader, contents_written (h.isWrittenLine hsayable)]
  rfl

/-- The lines up to a header are the content of the section above it. -/
theorem part?_updateRule (number : Nat) {body others : List Line}
    (hbody : ∀ line ∈ body, isHeader line = false)
    (hothers : ∀ line ∈ others.head?, isHeader line = true) :
    part? [.updateRule] ((number, "UPDATE RULE:".toList) :: (body ++ others)) =
      some { kind := .updateRule, line := number, body, rest := others } := by
  have hheader : header? "UPDATE RULE:".toList = some (.updateRule, []) := rfl
  have hplain : ∀ line ∈ body, (!isHeader line) = true := fun line hline => by
    rw [hbody line hline, Bool.not_false]
  have hstop : ∀ line ∈ others.head?, (!isHeader line) = false := fun line hline => by
    rw [hothers line hline, Bool.not_true]
  rw [part?, hheader]
  dsimp only
  rw [if_pos (by decide), takeWhile_run hplain hstop, dropWhile_run hplain hstop]
  rfl

/-- A section with written phases is read as these phases, whatever sections
follow. -/
theorem WritesPhases.readOptional_eq (h : WritesPhases (some digitLimit) phases written)
    (hsayable : ∀ phase ∈ phases, Phase.Sayable processes names phase)
    (hend : phases.countP Phase.isEnd ≤ 1) {lines others : List Line}
    (hlines : texts lines = updateSection written)
    (hothers : ∀ line ∈ others.head?, isHeader line = true) :
    readOptional .updateRule [] (readPhases (rulesVocabulary processes names) false)
      (lines ++ others) = .ok (phases, others) := by
  obtain ⟨number, body, rfl, hbody⟩ := exists_of_texts_eq_cons hlines
  have hplain : ∀ line ∈ body, isHeader line = false := by
    intro line hline
    have hwritten := h.isWrittenLine hsayable line.2 (hbody ▸ List.mem_map_of_mem hline)
    rw [isHeader, hwritten.header?_eq_none]
    rfl
  have hphases : PhasesRead (rulesVocabulary processes names) false written phases :=
    h.phasesRead hsayable hend
  rw [List.cons_append, readOptional, part?_updateRule number hplain hothers]
  dsimp only
  rw [hphases.readPhases_eq_ok hbody]
  rfl

end LossyConsensus.Source
