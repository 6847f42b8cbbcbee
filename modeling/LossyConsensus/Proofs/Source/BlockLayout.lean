/-
# Conditionals on one line and in blocks

A conditional on one line is laid out as a block by breaking its line after
`then` and around `else`.  If each conditional keeps an `end` of its own, the
block is read as the same rule.  If all `end` lines stand at the close, every
alternative of the block belongs to the nearest conditional before it, whereas
on one line the first `else` belongs to the first `if`: the two differ where a
conditional stands between an `if` and its `else`.
-/

import LossyConsensus.Proofs.Source.BlockWord
import LossyConsensus.Proofs.Source.Opening
import LossyConsensus.Proofs.Source.WrittenRule

namespace LossyConsensus.Protocol.Rule

variable {R : Type}

/-- Whether a rule has no branches. -/
def isPlain : Rule R → Bool
  | .onlyIf _ _ => false
  | .choose _ _ _ => false
  | _ => true

/-- Whether an alternative stands in the chain of conditionals that begins a
rule. -/
def hasElse : Rule R → Bool
  | .onlyIf _ rule => hasElse rule
  | .choose _ _ _ => true
  | _ => false

/-- No first branch holds an alternative of its own. -/
def FirstBranchesWithoutElse : Rule R → Prop
  | .onlyIf _ rule => FirstBranchesWithoutElse rule
  | .choose _ yes no => hasElse yes = false ∧ FirstBranchesWithoutElse no
  | _ => True

/-- No conditional stands between an `if` and its `else`. -/
def ElseFollowsRule : Rule R → Prop
  | .onlyIf _ rule => ElseFollowsRule rule
  | .choose _ yes no => isPlain yes = true ∧ ElseFollowsRule no
  | _ => True

/-- The conditional with a first branch and an alternative that belongs to the
last conditional of the branch. -/
def chooseNearest (predicate : Predicate R) : Rule R → Rule R → Rule R
  | .onlyIf inner rule, no => .onlyIf predicate (chooseNearest inner rule no)
  | yes, no => .choose predicate yes no

/-- The rule with every alternative given to the nearest conditional before
it. -/
def elseToNearest : Rule R → Rule R
  | .onlyIf predicate rule => .onlyIf predicate (elseToNearest rule)
  | .choose predicate yes no => chooseNearest predicate yes (elseToNearest no)
  | rule => rule

theorem chooseNearest_of_isPlain {predicate : Predicate R} {yes no : Rule R}
    (h : isPlain yes = true) : chooseNearest predicate yes no = .choose predicate yes no := by
  cases yes with
  | onlyIf _ _ => cases h
  | _ => rfl

theorem elseToNearest_of_isPlain {rule : Rule R} (h : isPlain rule = true) :
    elseToNearest rule = rule := by
  cases rule with
  | onlyIf _ _ => cases h
  | choose _ _ _ => cases h
  | _ => rfl

/-- Alternatives already belong to the nearest conditional exactly where no
conditional stands between an `if` and its `else`. -/
theorem elseToNearest_eq_self_iff {rule : Rule R} (h : FirstBranchesWithoutElse rule) :
    elseToNearest rule = rule ↔ ElseFollowsRule rule := by
  induction rule with
  | onlyIf predicate rule ih =>
      rw [elseToNearest, Rule.onlyIf.injEq, ih h]
      simp [ElseFollowsRule]
  | choose predicate yes no _ ih =>
      rw [elseToNearest, ElseFollowsRule]
      cases hyes : isPlain yes with
      | true => rw [chooseNearest_of_isPlain hyes, Rule.choose.injEq, ih h.2]; simp
      | false =>
          -- A first branch that is no conditional with an alternative is one without.
          have hmoved : chooseNearest predicate yes (elseToNearest no) ≠ .choose predicate yes no := by
            cases yes with
            | onlyIf inner rule =>
                rw [chooseNearest]
                intro heq
                cases heq
            | choose _ _ _ => cases h.1
            | _ => cases hyes
          simp [hmoved]
  | _ => simp [elseToNearest, ElseFollowsRule]

end LossyConsensus.Protocol.Rule

namespace LossyConsensus.Source

open LossyConsensus.Protocol LossyConsensus.Text

variable {v : Vocabulary} {text rest body condition source left right opening : List Char}
  {c : Char} {rule yes no : Rule Float} {predicate : Predicate Float}

/-- A rule without a condition has no branches. -/
theorem SimpleRuleReads.isPlain (h : SimpleRuleReads v text rule) : rule.isPlain = true := by
  cases h with
  | ifDifferent _ _ _ _ => rfl
  | assign _ _ _ _ => rfl
  | combine _ _ _ => rfl
  | value _ _ _ _ => rfl

/-! ## Layouts -/

/-- The lines of a conditional on one line as a block in which each conditional
is closed by its own `end`. -/
def blockLines (source : List Char) : List (List Char) :=
  match _h : ifThen? (trim source) with
  | none => [trim source]
  | some (_, rest) =>
      openingLine (trim source) rest ::
        match _hcut : cutOutsideAnyCase? " else ".toList (conditionalBody rest) with
        | none => blockLines (conditionalBody rest) ++ ["end".toList]
        | some (left, right) =>
            blockLines left ++ "else".toList :: (blockLines right ++ ["end".toList])
termination_by source.length
decreasing_by
  all_goals
    have hbody := length_conditionalBody_le rest
    have hthen := length_ifThen? _h
    have htrim := length_trim_le source
  · exact Nat.lt_of_le_of_lt hbody (Nat.lt_of_lt_of_le hthen htrim)
  · exact Nat.lt_trans (length_cutOutsideAnyCase? (by decide) _hcut).1
      (Nat.lt_of_le_of_lt hbody (Nat.lt_of_lt_of_le hthen htrim))
  · exact Nat.lt_trans (length_cutOutsideAnyCase? (by decide) _hcut).2
      (Nat.lt_of_le_of_lt hbody (Nat.lt_of_lt_of_le hthen htrim))

/-- The lines of a block without those that close conditionals. -/
def withoutEnds (lines : List (List Char)) : List (List Char) :=
  lines.filter (· != "end".toList)

/-- The lines that close the conditionals of a block. -/
def closingEnds (lines : List (List Char)) : List (List Char) :=
  List.replicate (lines.count "end".toList) "end".toList

/-- The block with all its `end` lines at the close. -/
def endsLast (lines : List (List Char)) : List (List Char) :=
  withoutEnds lines ++ closingEnds lines

theorem blockLines_plain (h : ifThen? (trim source) = none) :
    blockLines source = [trim source] := by
  rw [blockLines]
  split
  · rfl
  · next hsome =>
    rw [h] at hsome
    cases hsome

theorem blockLines_onlyIf (h : ifThen? (trim source) = some (condition, rest))
    (hcut : cutOutsideAnyCase? " else ".toList (conditionalBody rest) = none) :
    blockLines source =
      openingLine (trim source) rest :: (blockLines (conditionalBody rest) ++ ["end".toList]) := by
  rw [blockLines]
  split
  · next hnone =>
    rw [h] at hnone
    cases hnone
  · next hsome =>
    rw [h] at hsome
    cases hsome
    split
    · rfl
    · next hfound =>
      rw [hcut] at hfound
      cases hfound

theorem blockLines_choose (h : ifThen? (trim source) = some (condition, rest))
    (hcut : cutOutsideAnyCase? " else ".toList (conditionalBody rest) = some (left, right)) :
    blockLines source = openingLine (trim source) rest ::
      (blockLines left ++ "else".toList :: (blockLines right ++ ["end".toList])) := by
  rw [blockLines]
  split
  · next hnone =>
    rw [h] at hnone
    cases hnone
  · next hsome =>
    rw [h] at hsome
    cases hsome
    split
    · next hnone =>
      rw [hcut] at hnone
      cases hnone
    · next hfound =>
      rw [hcut] at hfound
      cases hfound
      rfl

theorem withoutEnds_cons (h : text ≠ "end".toList) (lines : List (List Char)) :
    withoutEnds (text :: lines) = text :: withoutEnds lines :=
  List.filter_cons_of_pos (by simpa using h)

theorem withoutEnds_append (first second : List (List Char)) :
    withoutEnds (first ++ second) = withoutEnds first ++ withoutEnds second :=
  List.filter_append first second

theorem withoutEnds_append_end (lines : List (List Char)) :
    withoutEnds (lines ++ ["end".toList]) = withoutEnds lines :=
  (withoutEnds_append lines _).trans (List.append_nil _)

theorem closingEnds_cons (h : text ≠ "end".toList) (lines : List (List Char)) :
    closingEnds (text :: lines) = closingEnds lines := by
  rw [closingEnds, closingEnds, List.count_cons_of_ne h]

/-- How many ends close a block, not where they stand, is what counts. -/
theorem closingEnds_perm {first second : List (List Char)} (h : first.Perm second) :
    closingEnds first = closingEnds second := by
  rw [closingEnds, closingEnds, h.count_eq]

theorem closingEnds_append_end (lines after : List (List Char)) :
    closingEnds (lines ++ ["end".toList]) ++ after = closingEnds lines ++ "end".toList :: after := by
  rw [closingEnds, List.count_append, List.count_singleton_self, List.replicate_succ',
    List.append_assoc]
  rfl

/-- A line that does not go on with a block does not close it. -/
theorem ne_end (h : isBlockKeyword text = false) : text ≠ "end".toList := by
  rintro rfl
  cases h

/-! ## Blocks with an end for each conditional -/

theorem front_of_ifThen? {found : List Char × List Char} (h : ifThen? text = some found) :
    ∃ c rest, text = c :: rest ∧ isCaseOf 'i' c = true := by
  obtain ⟨start, hstart, _⟩ := Option.bind_eq_some_iff.mp h
  obtain ⟨written, rfl, hcase⟩ := parts_of_afterAnyCase? hstart
  cases hcase with
  | cons hc _ => exact ⟨_, _, rfl, hc⟩

/-- A line that opens a conditional neither continues nor closes another one. -/
theorem isBlockKeyword_of_ifThen? {found : List Char × List Char} (h : ifThen? text = some found) :
    isBlockKeyword text = false := by
  obtain ⟨c, rest, rfl, hc⟩ := front_of_ifThen? h
  refine isBlockKeyword_cons ?_
  rintro rfl
  exact absurd hc (by decide)

/-- A line that opens a conditional is no header of a phase. -/
theorem phaseHeader?_of_ifThen? {found : List Char × List Char} (h : ifThen? text = some found)
    (number : Nat) : phaseHeader? (number, text) = .ok none := by
  obtain ⟨c, rest, rfl, hc⟩ := front_of_ifThen? h
  have hother : ∀ d ∈ ['E', 'F', 'A', 'U'], isCaseOf 'i' d = false := by decide
  refine phaseHeader?_cons (fun hmem => ?_) number
  rw [hother c hmem] at hc
  cases hc

/-- A part of a text on one line stands on one line. -/
theorem not_mem_of_isInfix (h : '\n' ∉ source) (hpart : text <:+: source) : '\n' ∉ text :=
  fun hmem => h (hpart.mem hmem)

/-- The parts of a conditional on one line: the line that opens its block, and
the body on one line. -/
theorem opening_of_ifThen? (hline : '\n' ∉ source)
    (h : ifThen? (trim source) = some (condition, rest)) :
    ifThen? (openingLine (trim source) rest) = some (condition, []) ∧
      isBlockKeyword (openingLine (trim source) rest) = false ∧ '\n' ∉ conditionalBody rest := by
  have hopening := ifThen?_openingLine (not_mem_of_isInfix hline (trim_isInfix source)) h
  have hbody := (parts_of_ifThen? h).2.trans (trim_isInfix source)
  exact ⟨hopening, isBlockKeyword_of_ifThen? hopening,
    not_mem_of_isInfix hline ((conditionalBody_isInfix rest).trans hbody)⟩

section Reading

variable (hv : v.SparesBlockWords)
include hv

/-- A rule without a condition is a block of its own. -/
theorem blockReads_plain (htrim : Trimmed text) (hif : ifThen? text = none)
    (hrule : readSimpleRule v text = .ok rule) :
    isBlockKeyword text = false ∧ ∀ after, BlockReads v text after rule after := by
  have hword := hv.firstWord_of_readSimpleRule htrim hrule
  have hread := (readRule_of_trimmed htrim hif).trans hrule
  exact ⟨isBlockKeyword_of_firstWord hword,
    blockReads_line hif (startsWith_if_of_firstWord hword) hread⟩

/-- The block of a conditional is read as the rule on one line, whatever lines
follow it. -/
theorem LineReads.blockReads (h : LineReads v source rule) (hline : '\n' ∉ source)
    (after : List (List Char)) :
    ∃ first following, blockLines source = first :: following ∧ isBlockKeyword first = false ∧
      BlockReads v first (following ++ after) rule after := by
  induction h generalizing after with
  | plain htrim hif hrule =>
      obtain ⟨hfresh, hread⟩ := blockReads_plain hv htrim hif hrule
      exact ⟨_, [], blockLines_plain hif, hfresh, hread after⟩
  | @onlyIf source condition rest predicate rule hif hpredicate hcut _ ih =>
      obtain ⟨hopening, hbegins, hbody⟩ := opening_of_ifThen? hline hif
      obtain ⟨first, following, hlines, hfresh, hread⟩ :=
        ih hbody ("end".toList :: after)
      refine ⟨_, _, blockLines_onlyIf hif hcut, hbegins, ?_⟩
      rw [hlines, List.append_assoc, List.cons_append]
      exact hread.closed hopening hpredicate hfresh
  | @choose source condition rest predicate left right yes no hif hpredicate hcut _ _ ihyes ihno =>
      obtain ⟨hopening, hbegins, hbody⟩ := opening_of_ifThen? hline hif
      obtain ⟨hleft, hright⟩ := isInfix_of_cutOutsideFrom hcut
      obtain ⟨other, others, hlinesNo, hother, hno⟩ :=
        ihno (not_mem_of_isInfix hbody hright) ("end".toList :: after)
      obtain ⟨first, following, hlinesYes, hfresh, hyes⟩ :=
        ihyes (not_mem_of_isInfix hbody hleft)
          ("else".toList :: other :: (others ++ "end".toList :: after))
      refine ⟨_, _, blockLines_choose hif hcut, hbegins, ?_⟩
      have hblock : BlockReads v _ _ (.choose predicate yes no) after :=
        .ifElse hopening hpredicate hfresh hyes hother hno
      rw [hlinesYes, hlinesNo]
      simpa only [List.append_assoc, List.cons_append, List.nil_append] using hblock

/-! ## Blocks with all ends at the close -/

/-- A first branch without alternatives leaves the next one to its last
conditional. -/
theorem LineReads.blockReads_before_else (h : LineReads v source yes) (hopen : yes.hasElse = false)
    (hline : '\n' ∉ source) (hif : ifThen? opening = some (condition, []))
    (hpredicate : readPredicate v condition = .ok predicate) {other : List Char}
    {others lines : List (List Char)} (hother : isBlockKeyword other = false)
    (hno : ∀ after, BlockReads v other (others ++ (closingEnds lines ++ after)) no after)
    (after : List (List Char)) :
    BlockReads v opening
      (withoutEnds (blockLines source) ++ "else".toList :: other ::
        (others ++ (closingEnds (blockLines source ++ lines) ++ "end".toList :: after)))
      (.chooseNearest predicate yes no) after := by
  -- The `end` lines are counted off from the inside: each conditional takes one.
  induction h generalizing opening condition predicate after with
  | @plain source rule htrim hplain hrule =>
      obtain ⟨hfresh, hread⟩ := blockReads_plain hv htrim hplain hrule
      have hends : closingEnds (blockLines source ++ lines) = closingEnds lines := by
        rw [blockLines_plain hplain, List.singleton_append, closingEnds_cons (ne_end hfresh)]
      rw [hends, blockLines_plain hplain, withoutEnds_cons (ne_end hfresh),
        Rule.chooseNearest_of_isPlain ((simpleRuleReads_of_readSimpleRule hrule).isPlain)]
      exact .ifElse hif hpredicate hfresh (hread _) hother (hno ("end".toList :: after))
  | @onlyIf source innerCondition rest innerPredicate rule hinner hinnerPredicate hcut _ ih =>
      obtain ⟨hopening, hfresh, hbody⟩ := opening_of_ifThen? hline hinner
      have hends : closingEnds (blockLines source ++ lines) ++ "end".toList :: after =
          closingEnds (blockLines (conditionalBody rest) ++ lines) ++
            "end".toList :: "end".toList :: after := by
        rw [blockLines_onlyIf hinner hcut, List.cons_append, closingEnds_cons (ne_end hfresh),
          ← closingEnds_append_end (blockLines (conditionalBody rest) ++ lines), List.append_assoc,
          List.append_assoc, closingEnds_perm (List.perm_append_comm.append_left _)]
      have hblock := ih hopen hbody hopening hinnerPredicate
        ("end".toList :: after)
      rw [hends, blockLines_onlyIf hinner hcut, withoutEnds_cons (ne_end hfresh),
        withoutEnds_append_end, Rule.chooseNearest]
      exact hblock.closed hif hpredicate hfresh
  | choose => cases hopen

/-- The block with its ends at the close is read with every alternative given to
the nearest conditional, whatever lines follow it. -/
theorem LineReads.blockReads_endsLast (h : LineReads v source rule)
    (hbranches : rule.FirstBranchesWithoutElse) (hline : '\n' ∉ source) :
    ∃ first following, withoutEnds (blockLines source) = first :: following ∧
      isBlockKeyword first = false ∧ ∀ after,
        BlockReads v first (following ++ (closingEnds (blockLines source) ++ after))
          rule.elseToNearest after := by
  induction h with
  | plain htrim hif hrule =>
      obtain ⟨hfresh, hread⟩ := blockReads_plain hv htrim hif hrule
      have hplain := (simpleRuleReads_of_readSimpleRule hrule).isPlain
      refine ⟨_, [], ?_, hfresh, fun after => ?_⟩
      · rw [blockLines_plain hif, withoutEnds_cons (ne_end hfresh)]
        rfl
      · rw [blockLines_plain hif, closingEnds_cons (ne_end hfresh),
          Rule.elseToNearest_of_isPlain hplain]
        exact hread after
  | @onlyIf source condition rest predicate rule hif hpredicate hcut _ ih =>
      obtain ⟨hopening, hfresh, hbody⟩ := opening_of_ifThen? hline hif
      obtain ⟨first, following, hlines, hfirst, hread⟩ :=
        ih hbranches hbody
      refine ⟨_, first :: following, ?_, hfresh, fun after => ?_⟩
      · rw [blockLines_onlyIf hif hcut, withoutEnds_cons (ne_end hfresh), withoutEnds_append_end,
          hlines]
      · rw [blockLines_onlyIf hif hcut, closingEnds_cons (ne_end hfresh), closingEnds_append_end]
        exact (hread ("end".toList :: after)).closed hopening hpredicate hfirst
  | @choose source condition rest predicate left right yes no hif hpredicate hcut hyes _ _ ihno =>
      obtain ⟨hopening, hfresh, hbody⟩ := opening_of_ifThen? hline hif
      obtain ⟨hleft, hright⟩ := isInfix_of_cutOutsideFrom hcut
      obtain ⟨other, others, hlines, hother, hno⟩ :=
        ihno hbranches.2 (not_mem_of_isInfix hbody hright)
      refine ⟨_, withoutEnds (blockLines left) ++ "else".toList :: other :: others, ?_, hfresh,
        fun after => ?_⟩
      · rw [blockLines_choose hif hcut, withoutEnds_cons (ne_end hfresh), withoutEnds_append,
          withoutEnds_cons (by decide), withoutEnds_append_end, hlines]
      · have hends : closingEnds (blockLines source) ++ after =
            closingEnds (blockLines left ++ blockLines right) ++ "end".toList :: after := by
          rw [blockLines_choose hif hcut, closingEnds_cons (ne_end hfresh),
            closingEnds_perm List.perm_middle, closingEnds_cons (by decide), ← List.append_assoc,
            closingEnds_append_end]
        have hblock := hyes.blockReads_before_else hv hbranches.1
          (not_mem_of_isInfix hbody hleft) hopening hpredicate hother hno after
        rw [hends, Rule.elseToNearest]
        simpa only [List.append_assoc, List.cons_append] using hblock

end Reading

/-! ## Phases -/

/-- The block of a conditional begins with the line that opens it, which is no
header of a phase. -/
theorem exists_of_blockLines (hline : '\n' ∉ text) (hif : (ifThen? (trim text)).isSome = true) :
    ∃ opening lines, blockLines text = opening :: lines ∧ isBlockKeyword opening = false ∧
      phaseHeader? (0, opening) = .ok none := by
  obtain ⟨⟨condition, rest⟩, hif⟩ := Option.isSome_iff_exists.mp hif
  obtain ⟨hopening, hbegins, _⟩ := opening_of_ifThen? hline hif
  cases hcut : cutOutsideAnyCase? " else ".toList (conditionalBody rest) with
  | none =>
      exact ⟨_, _, blockLines_onlyIf hif hcut, hbegins, phaseHeader?_of_ifThen? hopening 0⟩
  | some parts =>
      exact ⟨_, _, blockLines_choose hif hcut, hbegins, phaseHeader?_of_ifThen? hopening 0⟩

/-- A block is one phase of every round. -/
theorem readPhases_of_blockReads {first : List Char} {following : List (List Char)}
    (hheader : phaseHeader? (0, first) = .ok none) (hfresh : isBlockKeyword first = false)
    (hread : BlockReads v first following rule []) (ended : Bool) {lines : List Line}
    (hlines : texts lines = first :: following) :
    readPhases v ended lines = .ok [{ kind := .eachRound, rule }] := by
  rw [readPhases_eq_ok_iff, hlines]
  exact .plain hheader hfresh hread .nil

/-- A conditional on one line and its block.  With an `end` for each conditional
they are the same rule.  With all ends at the close the block is the rule with
each alternative given to the nearest conditional, which is the same rule exactly
where no conditional stands between an `if` and its `else`. -/
theorem one_line_conditional_in_blocks (hv : v.SparesBlockWords) (hline : '\n' ∉ text)
    (hif : (ifThen? (trim text)).isSome = true) (hrule : readRule v text = .ok rule)
    (ended : Bool) :
    (∀ lines, texts lines = blockLines text →
      readPhases v ended lines = .ok [{ kind := .eachRound, rule }]) ∧
    (rule.FirstBranchesWithoutElse →
      (∀ lines, texts lines = endsLast (blockLines text) →
        readPhases v ended lines = .ok [{ kind := .eachRound, rule := rule.elseToNearest }]) ∧
      (rule.elseToNearest = rule ↔ rule.ElseFollowsRule)) := by
  have hreads := lineReads_of_readRule hrule
  obtain ⟨opening, more, hblock, hbegins, hheader⟩ := exists_of_blockLines hline hif
  constructor
  · intro lines hlines
    obtain ⟨first, following, hfirst, hfresh, hread⟩ := hreads.blockReads hv hline []
    obtain ⟨rfl, rfl⟩ := List.cons.inj (hblock.symm.trans hfirst)
    rw [List.append_nil] at hread
    exact readPhases_of_blockReads hheader hfresh hread ended (hlines.trans hblock)
  · intro hbranches
    refine ⟨fun lines hlines => ?_, Rule.elseToNearest_eq_self_iff hbranches⟩
    obtain ⟨first, following, hfirst, hfresh, hread⟩ :=
      hreads.blockReads_endsLast hv hbranches hline
    have hopening : withoutEnds (blockLines text) = opening :: withoutEnds more := by
      rw [hblock, withoutEnds_cons (ne_end hbegins)]
    obtain ⟨rfl, rfl⟩ := List.cons.inj (hopening.symm.trans hfirst)
    have hlast := hread []
    rw [List.append_nil] at hlast
    refine readPhases_of_blockReads hheader hfresh hlast ended ?_
    rw [hlines, endsLast, hopening, List.cons_append]

/-- The vocabulary of two processes and no parameters. -/
def plainVocabulary : Vocabulary :=
  { processes := some 2, declared := some [] }

theorem plainVocabulary_sparesBlockWords : plainVocabulary.SparesBlockWords :=
  ⟨by decide, by decide, [], rfl, by decide⟩

/-- Two conditionals on one line with one alternative. -/
def twoConditionals : List Char :=
  "if received_any then if received_all then x ← min(all) else x ← max(all)".toList

/-- An assignment of an aggregate over everything received. -/
def assignAll (how : Aggregation) : Rule Float :=
  .assign (.plain "x") (.aggregate how true)

/-- On one line the first `else` belongs to the first `if`. -/
theorem twoConditionals_on_one_line : readRule plainVocabulary twoConditionals =
    .ok (.choose .receivedAny (.onlyIf .receivedAll (assignAll .min)) (assignAll .max)) := by
  decide +kernel

/-- In a block the first `if` keeps the alternative only if the second one is
closed before it. -/
theorem twoConditionals_in_blocks :
    readPhases plainVocabulary false [(1, "if received_any then".toList),
        (2, "if received_all then".toList), (3, "x ← min(all)".toList), (4, "end".toList),
        (5, "else".toList), (6, "x ← max(all)".toList), (7, "end".toList)] =
      .ok [{ kind := .eachRound, rule :=
        .choose .receivedAny (.onlyIf .receivedAll (assignAll .min)) (assignAll .max) }] ∧
    readPhases plainVocabulary false [(1, "if received_any then".toList),
        (2, "if received_all then".toList), (3, "x ← min(all)".toList), (4, "else".toList),
        (5, "x ← max(all)".toList), (6, "end".toList), (7, "end".toList)] =
      .ok [{ kind := .eachRound, rule :=
        .onlyIf .receivedAny (.choose .receivedAll (assignAll .min) (assignAll .max)) }] := by
  have hboth := one_line_conditional_in_blocks plainVocabulary_sparesBlockWords (by decide)
    (by decide +kernel) twoConditionals_on_one_line false
  exact ⟨hboth.1 _ (by decide +kernel), (hboth.2 ⟨rfl, trivial⟩).1 _ (by decide +kernel)⟩

/-- The block that keeps the words in order and is closed by its ends is not the
same rule. -/
theorem one_line_and_block_differ :
    endsLast (blockLines twoConditionals) = ["if received_any then", "if received_all then",
      "x ← min(all)", "else", "x ← max(all)", "end", "end"].map String.toList ∧
    readRule plainVocabulary twoConditionals =
      .ok (.choose .receivedAny (.onlyIf .receivedAll (assignAll .min)) (assignAll .max)) ∧
    readPhases plainVocabulary false [(1, "if received_any then".toList),
      (2, "if received_all then".toList), (3, "x ← min(all)".toList), (4, "else".toList),
      (5, "x ← max(all)".toList), (6, "end".toList), (7, "end".toList)] =
    .ok [{ kind := .eachRound, rule :=
      .onlyIf .receivedAny (.choose .receivedAll (assignAll .min) (assignAll .max)) }] := by
  refine ⟨?_, ?_, ?_⟩
  · decide +kernel
  · decide +kernel
  · decide +kernel

end LossyConsensus.Source
