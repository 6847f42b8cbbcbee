/-
# Blocks and phases as texts

Which rule a block gives, and where the block ends, is decided by the texts of
its lines; their numbers only go into errors.  The relations below say so
without numbers: one constructor for each form of a block and of a phase, and
the readers succeed exactly where the relations hold.
-/

import LossyConsensus.Proofs.Except
import LossyConsensus.Proofs.Text.Blank
import LossyConsensus.Proofs.Text.Scan
import LossyConsensus.Source.Phases

namespace LossyConsensus.Source

open LossyConsensus.Protocol LossyConsensus.Text

variable {v : Vocabulary}

/-- The texts of numbered lines. -/
def texts (lines : List Line) : List (List Char) :=
  lines.map (·.2)

/-- The lines after an `end` that closes a block, or all of them without
one. -/
def afterEnd : List (List Char) → List (List Char)
  | [] => []
  | text :: rest => if text = "end".toList then rest else text :: rest

theorem texts_dropEndLine (lines : List Line) :
    texts (dropEndLine lines) = afterEnd (texts lines) := by
  cases lines with
  | nil => rfl
  | cons line rest =>
      obtain ⟨number, text⟩ := line
      by_cases htext : text = "end".toList
      · rw [dropEndLine, if_pos (beq_iff_eq.mpr htext)]
        exact (if_pos htext).symm
      · rw [dropEndLine, if_neg (by rwa [beq_iff_eq])]
        exact (if_neg htext).symm

/-- Lines with given texts begin with a line that has the first of them. -/
theorem exists_of_texts_eq_cons {lines : List Line} {text : List Char} {rest : List (List Char)}
    (h : texts lines = text :: rest) :
    ∃ number following, lines = (number, text) :: following ∧ texts following = rest := by
  obtain ⟨⟨number, found⟩, following, rfl, rfl, hrest⟩ := List.map_eq_cons_iff.mp h
  exact ⟨number, following, rfl, hrest⟩

/-! ## Rules on one line -/

/-- A rule without a condition is read from a text: it is taken apart as a choice between
two expressions, as an assignment, as the name of a combination, or as an expression for
the state variable, whichever comes first. -/
inductive SimpleRuleReads (v : Vocabulary) (text : List Char) : Rule Float → Prop
  | ifDifferent {different same first second}
      (harguments : differentArguments? text = some [different, same])
      (hsome : ¬ (different.isEmpty || same.isEmpty) = true)
      (hfirst : readExpr v different = .ok first) (hsecond : readExpr v same = .ok second) :
      SimpleRuleReads v text (.ifDifferent first second)
  | assign {left right target value} (harguments : differentArguments? text = none)
      (hassignment : assignment? text = some (left, right))
      (htarget : readTarget v (trim left) = .ok target) (hvalue : readExpr v right = .ok value) :
      SimpleRuleReads v text (.assign target value)
  | combine {how} (harguments : differentArguments? text = none)
      (hassignment : assignment? text = none)
      (hhow : combinations.lookup (String.ofList (lower text)) = some how) :
      SimpleRuleReads v text (.combine how)
  | value {value} (harguments : differentArguments? text = none)
      (hassignment : assignment? text = none)
      (hhow : combinations.lookup (String.ofList (lower text)) = none)
      (hvalue : readExpr v text = .ok value) :
      SimpleRuleReads v text (.assign (.indexed v.stateVar) value)

theorem simpleRuleReads_of_readSimpleRule {text : List Char} {rule : Rule Float}
    (h : readSimpleRule v text = .ok rule) : SimpleRuleReads v text rule := by
  rw [readSimpleRule] at h
  split at h
  · next harguments =>
    split at h
    · obtain ⟨hsome, h⟩ := guarded_eq_ok.mp h
      obtain ⟨first, hfirst, h⟩ := bind_eq_ok.mp h
      obtain ⟨second, hsecond, h⟩ := bind_eq_ok.mp h
      cases h
      exact .ifDifferent harguments hsome hfirst hsecond
    · cases h
  · next harguments =>
    split at h
    · next hassignment =>
      obtain ⟨target, htarget, h⟩ := bind_eq_ok.mp h
      obtain ⟨value, hvalue, h⟩ := bind_eq_ok.mp h
      cases h
      exact .assign harguments hassignment htarget hvalue
    · next hassignment =>
      split at h
      · next hhow =>
        cases h
        exact .combine harguments hassignment hhow
      · next hhow =>
        split at h
        · next hvalue =>
          cases h
          exact .value harguments hassignment hhow hvalue
        · cases h
        · cases h

/-- A text on one line is read as a rule: one constructor for each form. -/
inductive LineReads (v : Vocabulary) : List Char → Rule Float → Prop
  | plain {source rule} (htrim : Trimmed (trim source)) (hif : ifThen? (trim source) = none)
      (hrule : readSimpleRule v (trim source) = .ok rule) : LineReads v source rule
  | onlyIf {source condition rest predicate rule}
      (hif : ifThen? (trim source) = some (condition, rest))
      (hpredicate : readPredicate v condition = .ok predicate)
      (hcut : cutOutsideAnyCase? " else ".toList (conditionalBody rest) = none)
      (hrule : LineReads v (conditionalBody rest) rule) :
      LineReads v source (.onlyIf predicate rule)
  | choose {source condition rest predicate left right yes no}
      (hif : ifThen? (trim source) = some (condition, rest))
      (hpredicate : readPredicate v condition = .ok predicate)
      (hcut : cutOutsideAnyCase? " else ".toList (conditionalBody rest) = some (left, right))
      (hyes : LineReads v left yes) (hno : LineReads v right no) :
      LineReads v source (.choose predicate yes no)

theorem lineReads_of_readRule {source : List Char} {rule : Rule Float}
    (h : readRule v source = .ok rule) : LineReads v source rule := by
  fun_induction readRule v source generalizing rule
  case case1 => cases h
  case case2 source text hsome hnone =>
    exact .plain (trimmed_trim (by simpa using hsome)) hnone h
  case case3 source text hsome condition rest hif ihbody ihleft ihright =>
    obtain ⟨predicate, hpredicate, h⟩ := bind_eq_ok.mp h
    dsimp only at h
    split at h
    · cases h
    · split at h
      · next hcut =>
        obtain ⟨rule, hrule, h⟩ := bind_eq_ok.mp h
        cases h
        exact .onlyIf hif hpredicate hcut (ihbody hrule)
      · next left right hcut =>
        obtain ⟨yes, hyes, h⟩ := bind_eq_ok.mp h
        obtain ⟨no, hno, h⟩ := bind_eq_ok.mp h
        cases h
        exact .choose hif hpredicate hcut (ihleft left right hcut hyes)
          (ihright left right hcut hno)

/-! ## Blocks -/

/-- Whether a text may follow the branch of a conditional that has no `else`
part. -/
def endsBranch (text : List Char) : Prop :=
  text ≠ "else".toList ∧ elseIf? text = none

/-- A line that begins with another letter neither continues nor closes a
block. -/
theorem isBlockKeyword_cons {c : Char} {text : List Char} (hc : c ≠ 'e') :
    isBlockKeyword (c :: text) = false := by
  have hne : ∀ more, c :: text ≠ 'e' :: more := by
    intro more heq
    exact hc (List.cons.inj heq).1
  have hstarts : startsWith "else ".toList (c :: text) = false := by
    have hafter : after? ('e' :: "lse ".toList) (c :: text) = none := after?_cons_ne hc.symm
    exact congrArg Option.isSome hafter
  have helse : (c :: text == "else".toList) = false := beq_eq_false_iff_ne.mpr (hne _)
  have hend : (c :: text == "end".toList) = false := beq_eq_false_iff_ne.mpr (hne _)
  rw [isBlockKeyword, helse, hend, hstarts]
  rfl

/-- The block that begins with a text and may go on in the lines after it gives
a rule and leaves lines over. -/
inductive BlockReads (v : Vocabulary) :
    List Char → List (List Char) → Rule Float → List (List Char) → Prop
  | single {text rest rule} (hwhole : ∀ condition, ifThen? text ≠ some (condition, []))
      (hthen : ifThen? text = none → startsWith "if ".toList (lower text) = false)
      (hrule : readRule v text = .ok rule) : BlockReads v text rest rule rest
  | onlyIf {text condition predicate next following yes left}
      (hif : ifThen? text = some (condition, []))
      (hpredicate : readPredicate v condition = .ok predicate)
      (hnext : isBlockKeyword next = false) (hyes : BlockReads v next following yes left)
      (hends : ∀ stop ∈ left.head?, endsBranch stop) :
      BlockReads v text (next :: following) (.onlyIf predicate yes) (afterEnd left)
  | ifElse {text condition predicate next following yes other afterwards no left}
      (hif : ifThen? text = some (condition, []))
      (hpredicate : readPredicate v condition = .ok predicate)
      (hnext : isBlockKeyword next = false)
      (hyes : BlockReads v next following yes ("else".toList :: other :: afterwards))
      (hother : isBlockKeyword other = false) (hno : BlockReads v other afterwards no left) :
      BlockReads v text (next :: following) (.choose predicate yes no) (afterEnd left)
  | elseIf {text condition predicate next following yes word conditional others no left}
      (hif : ifThen? text = some (condition, []))
      (hpredicate : readPredicate v condition = .ok predicate)
      (hnext : isBlockKeyword next = false)
      (hyes : BlockReads v next following yes (word :: others))
      (hword : word ≠ "else".toList) (helse : elseIf? word = some conditional)
      (hno : BlockReads v conditional others no left) :
      BlockReads v text (next :: following) (.choose predicate yes no) left

theorem endsBranch_end : endsBranch "end".toList :=
  ⟨by decide, rfl⟩

/-- A conditional without an alternative takes the `end` after its branch. -/
theorem BlockReads.closed {text condition next : List Char} {predicate : Predicate Float}
    {following left : List (List Char)} {yes : Rule Float}
    (hyes : BlockReads v next following yes ("end".toList :: left))
    (hif : ifThen? text = some (condition, []))
    (hpredicate : readPredicate v condition = .ok predicate)
    (hnext : isBlockKeyword next = false) :
    BlockReads v text (next :: following) (.onlyIf predicate yes) left := by
  refine .onlyIf hif hpredicate hnext hyes fun stop hstop => ?_
  cases hstop
  exact endsBranch_end

/-! ## The reader of blocks -/

/-- The rule that a block gives and the lines that it leaves over, without a bound
on them. -/
def block (v : Vocabulary) (number : Nat) (text : List Char) (rest : List Line) :
    Except ParseError (Rule Float × List Line) :=
  (readBlock v number text rest).map fun result => (result.1, result.2.1)

/-- The alternative of a conditional, which begins the line after `else`. -/
def alternative (v : Vocabulary) (predicate : Predicate Float) (yes : Rule Float) (number : Nat) :
    List Line → Except ParseError (Rule Float × List Line)
  | [] => refuse number .emptyElse
  | (otherNumber, other) :: afterwards =>
      if isBlockKeyword other then refuse otherNumber (.strayKeyword (String.ofList other))
      else do
        let (no, kept) ← block v otherNumber other afterwards
        return (.choose predicate yes no, dropEndLine kept)

/-- The end of a conditional whose first branch has been read: an alternative,
another conditional in its place, or neither. -/
def afterBranch (v : Vocabulary) (predicate : Predicate Float) (yes : Rule Float) :
    List Line → Except ParseError (Rule Float × List Line)
  | [] => .ok (.onlyIf predicate yes, [])
  | (number, text) :: others =>
      if text = "else".toList then alternative v predicate yes number others
      else
        match elseIf? text with
        | some conditional => do
            let (no, kept) ← block v number conditional others
            return (.choose predicate yes no, kept)
        | none => .ok (.onlyIf predicate yes, dropEndLine ((number, text) :: others))

/-- The branches of a conditional, the first of which begins the next line. -/
def branches (v : Vocabulary) (number : Nat) (predicate : Predicate Float) :
    List Line → Except ParseError (Rule Float × List Line)
  | [] => refuse number (.rule .emptyConditional)
  | (nextNumber, next) :: following =>
      if isBlockKeyword next then refuse number (.rule .emptyConditional)
      else do
        let (yes, left) ← block v nextNumber next following
        afterBranch v predicate yes left

/-- A block that does not begin with a conditional stands on one line. -/
theorem block_of_whole {number : Nat} {text : List Char} {rest : List Line}
    (hwhole : ∀ condition, ifThen? text ≠ some (condition, [])) :
    block v number text rest =
      if ifThen? text = none ∧ startsWith "if ".toList (lower text) = true then
        refuse number .expectedThen
      else do
        let rule ← onLine number (readRule v text)
        return (rule, rest) := by
  rw [block, readBlock]
  cases hif : ifThen? text with
  | none =>
      by_cases hthen : startsWith "if ".toList (lower text) = true
      · rw [if_pos hthen, if_pos ⟨rfl, hthen⟩]
        rfl
      · rw [if_neg hthen, if_neg fun h => hthen h.2]
        cases onLine number (readRule v text) with
        | error error => rfl
        | ok rule => rfl
  | some found =>
      obtain ⟨condition, body⟩ := found
      cases body with
      | nil => exact absurd hif (hwhole condition)
      | cons first others =>
          simp only [List.isEmpty_cons, Bool.not_false, if_true, reduceCtorEq, false_and, if_false]
          cases onLine number (readRule v text) with
          | error error => rfl
          | ok rule => rfl

/-- A conditional goes on in the next line with its first branch. -/
theorem block_of_conditional {number : Nat} {text condition : List Char} {rest : List Line}
    (hif : ifThen? text = some (condition, [])) :
    block v number text rest = (do
      let predicate ← onLine number (readPredicate v condition)
      branches v number predicate rest) := by
  rw [block, readBlock, hif]
  simp only [List.isEmpty_nil, Bool.not_true, Bool.false_eq_true, if_false]
  cases onLine number (readPredicate v condition) with
  | error error => rfl
  | ok predicate =>
      cases rest with
      | nil => rfl
      | cons line following =>
          obtain ⟨nextNumber, next⟩ := line
          simp only [bind, Except.bind, branches, block]
          by_cases hnext : isBlockKeyword next = true
          · rw [if_pos hnext, if_pos hnext]
            rfl
          · rw [if_neg hnext, if_neg hnext]
            cases readBlock v nextNumber next following with
            | error error => rfl
            | ok result =>
                obtain ⟨yes, left, hleft⟩ := result
                cases left with
                | nil => rfl
                | cons line others =>
                    obtain ⟨elseNumber, elseText⟩ := line
                    simp only [Except.map, afterBranch, beq_iff_eq, pure, Except.pure]
                    by_cases helse : elseText = "else".toList
                    · rw [if_pos helse, if_pos helse]
                      cases others with
                      | nil => rfl
                      | cons line afterwards =>
                          obtain ⟨otherNumber, other⟩ := line
                          rw [alternative]
                          by_cases hother : isBlockKeyword other = true
                          · simp only [if_pos hother]
                            rfl
                          · simp only [if_neg hother, block]
                            cases readBlock v otherNumber other afterwards with
                            | error error => rfl
                            | ok result => rfl
                    · rw [if_neg helse, if_neg helse]
                      cases elseIf? elseText with
                      | none => rfl
                      | some conditional =>
                          simp only [block]
                          cases readBlock v elseNumber conditional others with
                          | error error => rfl
                          | ok result => rfl

/-- A conditional is read through its first branch and what ends it. -/
theorem block_eq_of_afterBranch {number nextNumber : Nat} {text condition next : List Char}
    {predicate : Predicate Float} {following left : List Line} {yes : Rule Float} {result}
    (hif : ifThen? text = some (condition, []))
    (hpredicate : readPredicate v condition = .ok predicate) (hnext : isBlockKeyword next = false)
    (hyes : block v nextNumber next following = .ok (yes, left))
    (h : afterBranch v predicate yes left = .ok result) :
    block v number text ((nextNumber, next) :: following) = .ok result := by
  rw [block_of_conditional hif]
  refine bind_eq_ok.mpr ⟨predicate, mapError_eq_ok.mpr hpredicate, ?_⟩
  rw [branches, if_neg (by simp [hnext])]
  exact bind_eq_ok.mpr ⟨(yes, left), hyes, h⟩

/-- A block leaves no more lines over than come after its first one. -/
theorem length_le_of_block {number : Nat} {text : List Char} {rest left : List Line}
    {rule : Rule Float} (h : block v number text rest = .ok (rule, left)) :
    left.length ≤ rest.length := by
  obtain ⟨⟨_, kept, hkept⟩, _, hsame⟩ := map_eq_ok.mp h
  cases hsame
  exact hkept

/-- What ends a conditional makes a block of it, where blocks are read from the
lines after its first branch. -/
theorem BlockReads.of_afterBranch {text condition next : List Char} {predicate : Predicate Float}
    {following : List (List Char)} {yes rule : Rule Float} {left kept : List Line}
    (hif : ifThen? text = some (condition, []))
    (hpredicate : readPredicate v condition = .ok predicate) (hnext : isBlockKeyword next = false)
    (hyes : BlockReads v next following yes (texts left))
    (hblocks : ∀ number text rest rule kept, rest.length < left.length →
      block v number text rest = .ok (rule, kept) →
        BlockReads v text (texts rest) rule (texts kept))
    (h : afterBranch v predicate yes left = .ok (rule, kept)) :
    BlockReads v text (next :: following) rule (texts kept) := by
  cases left with
  | nil =>
      cases h
      exact .onlyIf hif hpredicate hnext hyes fun stop hstop => nomatch hstop
  | cons line others =>
      obtain ⟨number, word⟩ := line
      rw [afterBranch] at h
      by_cases hword : word = "else".toList
      · rw [if_pos hword] at h
        subst hword
        cases others with
        | nil => cases h
        | cons line afterwards =>
            obtain ⟨otherNumber, other⟩ := line
            rw [alternative] at h
            split at h
            · cases h
            · next hother =>
              obtain ⟨⟨no, last⟩, hread, h⟩ := bind_eq_ok.mp h
              cases h
              have hno := hblocks otherNumber other afterwards no last
                (Nat.lt_succ_of_lt (Nat.lt_succ_self _)) hread
              rw [texts_dropEndLine]
              exact .ifElse hif hpredicate hnext hyes (by simpa using hother) hno
      · rw [if_neg hword] at h
        split at h
        · next conditional hconditional =>
          obtain ⟨⟨no, last⟩, hread, h⟩ := bind_eq_ok.mp h
          cases h
          have hno := hblocks number conditional others no kept (Nat.lt_succ_self _) hread
          exact .elseIf hif hpredicate hnext hyes hword hconditional hno
        · next hnone =>
          cases h
          rw [texts_dropEndLine]
          refine .onlyIf hif hpredicate hnext hyes fun stop hstop => ?_
          cases hstop
          exact ⟨hword, hnone⟩

/-- What is read as a block is one. -/
theorem blockReads_of_block {number : Nat} {text : List Char} {rest left : List Line}
    {rule : Rule Float} (h : block v number text rest = .ok (rule, left)) :
    BlockReads v text (texts rest) rule (texts left) := by
  -- A branch is read from fewer lines than its block, though not always from the next ones.
  induction hlength : rest.length using Nat.strongRecOn
    generalizing number text rest rule left with
  | ind length ih =>
      by_cases hwhole : ∀ condition, ifThen? text ≠ some (condition, [])
      · rw [block_of_whole hwhole] at h
        split at h
        · cases h
        · next hthen =>
          obtain ⟨rule, hrule, h⟩ := bind_eq_ok.mp h
          cases h
          refine .single hwhole (fun hnone => ?_) (mapError_eq_ok.mp hrule)
          exact Bool.eq_false_iff.mpr fun hstarts => hthen ⟨hnone, hstarts⟩
      · push Not at hwhole
        obtain ⟨condition, hif⟩ := hwhole
        rw [block_of_conditional hif] at h
        obtain ⟨predicate, hpredicate, h⟩ := bind_eq_ok.mp h
        cases rest with
        | nil => cases h
        | cons line following =>
            obtain ⟨nextNumber, next⟩ := line
            rw [branches] at h
            split at h
            · cases h
            · next hnext =>
              obtain ⟨⟨yes, afterYes⟩, hread, h⟩ := bind_eq_ok.mp h
              rw [List.length_cons] at hlength
              have hshort := length_le_of_block hread
              refine .of_afterBranch hif (mapError_eq_ok.mp hpredicate) (by simpa using hnext)
                (ih following.length (by omega) hread rfl) ?_ h
              intro number text rest rule kept hless hread
              exact ih rest.length (by omega) hread rfl

/-- A block is read as what it gives, whatever its lines' numbers are. -/
theorem BlockReads.exists_block {text : List Char} {following : List (List Char)}
    {rule : Rule Float} {left : List (List Char)} (h : BlockReads v text following rule left)
    (number : Nat) {rest : List Line} (hrest : texts rest = following) :
    ∃ kept, block v number text rest = .ok (rule, kept) ∧ texts kept = left := by
  induction h generalizing number rest with
  | @single text following rule hwhole hthen hrule =>
      refine ⟨rest, ?_, hrest⟩
      rw [block_of_whole hwhole, if_neg]
      · exact bind_eq_ok.mpr ⟨rule, mapError_eq_ok.mpr hrule, rfl⟩
      · rintro ⟨hnone, hstarts⟩
        exact Bool.eq_false_iff.mp (hthen hnone) hstarts
  | @onlyIf text condition predicate next following yes left hif hpredicate hnext _ hends ih =>
      obtain ⟨nextNumber, following, rfl, hfollowing⟩ := exists_of_texts_eq_cons hrest
      obtain ⟨kept, hread, rfl⟩ := ih nextNumber hfollowing
      refine ⟨dropEndLine kept, ?_, texts_dropEndLine kept⟩
      refine block_eq_of_afterBranch hif hpredicate hnext hread ?_
      cases kept with
      | nil => rfl
      | cons stop others =>
          obtain ⟨helse, helseIf⟩ := hends stop.2 rfl
          rw [afterBranch, if_neg helse, helseIf]
  | @ifElse text condition predicate next following yes other afterwards no left hif hpredicate
      hnext _ hother _ ihyes ihno =>
      obtain ⟨nextNumber, following, rfl, hfollowing⟩ := exists_of_texts_eq_cons hrest
      obtain ⟨kept, hread, hleft⟩ := ihyes nextNumber hfollowing
      obtain ⟨elseNumber, others, rfl, hothers⟩ := exists_of_texts_eq_cons hleft
      obtain ⟨otherNumber, afterwards, rfl, hafterwards⟩ := exists_of_texts_eq_cons hothers
      obtain ⟨last, hreadNo, rfl⟩ := ihno otherNumber hafterwards
      refine ⟨dropEndLine last, ?_, texts_dropEndLine last⟩
      refine block_eq_of_afterBranch hif hpredicate hnext hread ?_
      rw [afterBranch, if_pos rfl, alternative, if_neg (by simp [hother])]
      exact bind_eq_ok.mpr ⟨(no, last), hreadNo, rfl⟩
  | @elseIf text condition predicate next following yes word conditional others no left hif
      hpredicate hnext _ hword helse _ ihyes ihno =>
      obtain ⟨nextNumber, following, rfl, hfollowing⟩ := exists_of_texts_eq_cons hrest
      obtain ⟨kept, hread, hleft⟩ := ihyes nextNumber hfollowing
      obtain ⟨elseNumber, others, rfl, hothers⟩ := exists_of_texts_eq_cons hleft
      obtain ⟨last, hreadNo, rfl⟩ := ihno elseNumber hothers
      refine ⟨last, ?_, rfl⟩
      refine block_eq_of_afterBranch hif hpredicate hnext hread ?_
      rw [afterBranch, if_neg hword, helse]
      exact bind_eq_ok.mpr ⟨(no, last), hreadNo, rfl⟩

/-! ## Phases -/

/-- Which phase header stands on a line, if any, does not depend on the line's
number. -/
theorem phaseHeader?_of_phaseHeader? {number : Nat} {text : List Char}
    {header : Option PhaseHeader} (h : phaseHeader? (number, text) = .ok header) (other : Nat) :
    phaseHeader? (other, text) = .ok header := by
  simp only [phaseHeader?] at h ⊢
  split at h
  · exact h
  · split at h
    · exact h
    · split at h
      · exact h
      · split at h
        · split at h
          · next hword =>
            rw [if_pos hword]
            exact h
          · cases h
        · split at h
          · exact h
          · split at h
            · cases h
            · next hplain =>
              rw [if_neg hplain]
              exact h

/-- No header of a phase begins with another letter than these four. -/
theorem phaseHeader?_cons {c : Char} {text : List Char} (hc : c ∉ ['E', 'F', 'A', 'U'])
    (number : Nat) : phaseHeader? (number, c :: text) = .ok none := by
  have hnone : ∀ word : String, word.toList.head?.any ['E', 'F', 'A', 'U'].contains →
      after? word.toList (c :: text) = none := by
    intro word hword
    cases hparts : word.toList with
    | nil => rw [hparts] at hword; cases hword
    | cons d more =>
        rw [hparts] at hword
        refine after?_cons_ne ?_
        rintro rfl
        exact hc (List.contains_iff_mem.mp hword)
  have hbegins : beginsHeader (c :: text) = false := by
    rw [beginsHeader, List.any_eq_false]
    intro word hword
    have hfront : ∀ word ∈ ["EACH", "FIRST", "AFTER", "UNTIL"],
        word.toList.head?.any ['E', 'F', 'A', 'U'].contains := by decide
    rw [hnone word (hfront word hword)]
    exact Bool.false_ne_true
  simp only [phaseHeader?, keyword?, afterHeader?, untilHeader?, hnone "EACH ROUND" (by decide),
    hnone "FIRST ROUND" (by decide), hnone "AFTER" (by decide), hnone "UNTIL" (by decide),
    hnone "END" (by decide), hbegins, Option.bind_eq_bind, Option.bind_none, Bool.false_eq_true,
    if_false]

/-- The phases that the lines of an UPDATE RULE section give; `ended` tells
whether an END phase stands before them. -/
inductive PhasesRead (v : Vocabulary) : Bool → List (List Char) → List (Phase Float) → Prop
  | nil {ended} : PhasesRead v ended [] []
  | plain {ended text rest rule left phases} (hheader : phaseHeader? (0, text) = .ok none)
      (hfresh : isBlockKeyword text = false) (hblock : BlockReads v text rest rule left)
      (hphases : PhasesRead v ended left phases) :
      PhasesRead v ended (text :: rest) ({ kind := .eachRound, rule } :: phases)
  | onHeaderLine {ended text rest header rule phases}
      (hheader : phaseHeader? (0, text) = .ok (some header))
      (hend : header.kind = .atEnd → ended = false) (hinline : header.rest ≠ [])
      (hrule : readRule v header.rest = .ok rule)
      (hphases : PhasesRead v (ended || header.kind == .atEnd) rest phases) :
      PhasesRead v ended (text :: rest)
        ({ kind := header.kind, rule, after := header.after } :: phases)
  | onNextLine {ended text next rest header rule left phases}
      (hheader : phaseHeader? (0, text) = .ok (some header))
      (hend : header.kind = .atEnd → ended = false) (hinline : header.rest = [])
      (hfresh : isBlockKeyword next = false) (hblock : BlockReads v next rest rule left)
      (hphases : PhasesRead v (ended || header.kind == .atEnd) left phases) :
      PhasesRead v ended (text :: next :: rest)
        ({ kind := header.kind, rule, after := header.after } :: phases)

/-- A fresh block is no keyword of a block already begun. -/
theorem blockReads_of_readFreshBlock {line : Line} {rest : List Line} {result}
    (h : readFreshBlock v line rest = .ok result) :
    isBlockKeyword line.2 = false ∧
      BlockReads v line.2 (texts rest) result.1 (texts result.2.1) := by
  rw [readFreshBlock] at h
  split at h
  · cases h
  · next hfresh =>
    have hblock : block v line.1 line.2 rest = .ok (result.1, result.2.1) := by
      rw [block, h]
      rfl
    exact ⟨by simpa using hfresh, blockReads_of_block hblock⟩

theorem BlockReads.exists_readFreshBlock {text : List Char} {following : List (List Char)}
    {rule : Rule Float} {left : List (List Char)} (h : BlockReads v text following rule left)
    (hfresh : isBlockKeyword text = false) (number : Nat) {rest : List Line}
    (hrest : texts rest = following) :
    ∃ kept, readFreshBlock v (number, text) rest = .ok (rule, kept) ∧ texts kept.1 = left := by
  obtain ⟨kept, hblock, hleft⟩ := h.exists_block number hrest
  obtain ⟨⟨found, left, hshort⟩, hread, hsame⟩ := map_eq_ok.mp hblock
  cases hsame
  refine ⟨⟨left, hshort⟩, ?_, hleft⟩
  rw [readFreshBlock, if_neg (by simp [hfresh])]
  exact hread

/-- What is read as phases are phases of the section. -/
theorem phasesRead_of_readPhases {ended : Bool} {lines : List Line} {phases : List (Phase Float)}
    (h : readPhases v ended lines = .ok phases) : PhasesRead v ended (texts lines) phases := by
  obtain ⟨length, hlength⟩ : ∃ length, lines.length = length := ⟨_, rfl⟩
  induction length using Nat.strongRecOn generalizing ended lines phases with
  | ind length ih =>
      rw [readPhases.eq_def] at h
      split at h
      · cases h
        exact .nil
      · next line rest =>
        obtain ⟨number, text⟩ := line
        rw [List.length_cons] at hlength
        obtain ⟨header?, hheader, h⟩ := bind_eq_ok.mp h
        have hheader := phaseHeader?_of_phaseHeader? hheader 0
        cases header? with
        | none =>
            obtain ⟨⟨rule, left, hleft⟩, hrule, h⟩ := bind_eq_ok.mp h
            obtain ⟨others, hothers, h⟩ := bind_eq_ok.mp h
            obtain rfl := pure_eq_ok.mp h
            obtain ⟨hfresh, hblock⟩ := blockReads_of_readFreshBlock hrule
            exact .plain hheader hfresh hblock (ih left.length (by omega) hothers rfl)
        | some header =>
            dsimp only at h
            split at h
            · cases h
            · next hend =>
              have hend : header.kind = .atEnd → ended = false := by
                intro hkind
                simpa [hkind] using hend
              split at h
              · next hinline =>
                have hinline : header.rest = [] := by simpa using hinline
                split at h
                · cases h
                · next next following =>
                  rw [List.length_cons] at hlength
                  obtain ⟨⟨rule, left, hleft⟩, hrule, h⟩ := bind_eq_ok.mp h
                  obtain ⟨others, hothers, h⟩ := bind_eq_ok.mp h
                  obtain rfl := pure_eq_ok.mp h
                  obtain ⟨hfresh, hblock⟩ := blockReads_of_readFreshBlock hrule
                  exact .onNextLine hheader hend hinline hfresh hblock
                    (ih left.length (by omega) hothers rfl)
              · next hinline =>
                obtain ⟨rule, hrule, h⟩ := bind_eq_ok.mp h
                obtain ⟨others, hothers, h⟩ := bind_eq_ok.mp h
                obtain rfl := pure_eq_ok.mp h
                exact .onHeaderLine hheader hend (by simpa using hinline) (mapError_eq_ok.mp hrule)
                  (ih rest.length (by omega) hothers rfl)

/-- Phases are read as they are, whatever their lines' numbers are. -/
theorem PhasesRead.readPhases_eq_ok {ended : Bool} {written : List (List Char)}
    {phases : List (Phase Float)} (h : PhasesRead v ended written phases) {lines : List Line}
    (hlines : texts lines = written) : readPhases v ended lines = .ok phases := by
  induction h generalizing lines with
  | nil =>
      obtain rfl : lines = [] := List.map_eq_nil_iff.mp hlines
      rw [readPhases]
  | plain hheader hfresh hblock _ ih =>
      obtain ⟨number, rest, rfl, hrest⟩ := exists_of_texts_eq_cons hlines
      obtain ⟨⟨kept, hkept⟩, hread, hleft⟩ := hblock.exists_readFreshBlock hfresh number hrest
      rw [readPhases, phaseHeader?_of_phaseHeader? hheader number]
      simp only [bind, Except.bind, hread, ih hleft]
      rfl
  | @onHeaderLine ended text rest header rule phases hheader hend hinline hrule _ ih =>
      obtain ⟨number, rest, rfl, hrest⟩ := exists_of_texts_eq_cons hlines
      have hfirst : ¬ ((header.kind == .atEnd && ended) = true) := by
        simpa using hend
      rw [readPhases, phaseHeader?_of_phaseHeader? hheader number]
      simp only [bind, Except.bind, hfirst, Bool.false_eq_true, if_false, List.isEmpty_iff, hinline,
        onLine, hrule, Except.mapError, ih hrest]
      rfl
  | @onNextLine ended text next rest header rule left phases hheader hend hinline hfresh hblock _
      ih =>
      obtain ⟨number, others, rfl, hothers⟩ := exists_of_texts_eq_cons hlines
      obtain ⟨nextNumber, rest, rfl, hrest⟩ := exists_of_texts_eq_cons hothers
      obtain ⟨⟨kept, hkept⟩, hread, hleft⟩ := hblock.exists_readFreshBlock hfresh nextNumber hrest
      have hfirst : ¬ ((header.kind == .atEnd && ended) = true) := by
        simpa using hend
      rw [readPhases, phaseHeader?_of_phaseHeader? hheader number]
      simp only [bind, Except.bind, hfirst, Bool.false_eq_true, if_false, List.isEmpty_iff, hinline,
        if_true, hread, ih hleft]
      rfl

/-- The reader of phases succeeds exactly on the lines of a section that has
them. -/
theorem readPhases_eq_ok_iff {ended : Bool} {lines : List Line} {phases : List (Phase Float)} :
    readPhases v ended lines = .ok phases ↔ PhasesRead v ended (texts lines) phases :=
  ⟨phasesRead_of_readPhases, fun h => h.readPhases_eq_ok rfl⟩

end LossyConsensus.Source
