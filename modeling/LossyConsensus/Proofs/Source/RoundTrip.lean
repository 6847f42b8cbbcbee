/-
# Round trip of update rules

Whatever can be said can be written: counts by their digits, and everything else
by its parts.  And whatever is written is read back, so no two lists of phases
share a writing.

Some rules cannot be said.  A parameter's name may begin as a word for a
message's value, a count may need more digits than the reader takes, and there
are trees without any text.
-/

import LossyConsensus.Proofs.Source.WrittenPhases

namespace LossyConsensus.Source

open LossyConsensus.Decimal LossyConsensus.Protocol LossyConsensus.Text

variable {processes : Nat} {names : List String} {phases : List (Phase Float)} {most : Nat}
  {digits : List Char} {count : Int} {n d : Nat} {e : Expr Float} {p : Predicate Float}
  {rule : Rule Float} {ids : List Int}

/-! ## Digits of counts -/

theorem digitChar_facts (hd : d < 10) :
    digitValue? (Nat.digitChar d) = some d ∧ isSourceChar (Nat.digitChar d) = true := by
  have hall : ∀ d < 10,
      digitValue? (Nat.digitChar d) = some d ∧ isSourceChar (Nat.digitChar d) = true := by
    decide
  exact hall d hd

theorem isDigit_digitChar (hd : d < 10) : isDigit (Nat.digitChar d) = true := by
  rw [isDigit, (digitChar_facts hd).1]
  rfl

theorem isCount_digit {limit : Option Nat} (hlimit : ∀ most ∈ limit, 1 ≤ most) (hd : d < 10) :
    IsCount limit [Nat.digitChar d] d where
  number := digits_iff.mpr ⟨List.cons_ne_nil _ _,
    List.forall_mem_singleton.mpr (isDigit_digitChar hd)⟩
  source := List.forall_mem_singleton.mpr (digitChar_facts hd).2
  short := hlimit
  value := by simp [digitsValue, (digitChar_facts hd).1]

/-- One more digit at the end. -/
theorem IsCount.push (h : IsCount (some most) digits n) (hd : d < 10) :
    IsCount (some (most + 1)) (digits ++ [Nat.digitChar d]) (10 * n + d : Nat) where
  number := by
    obtain ⟨hnil, hdigits⟩ := digits_iff.mp h.number
    exact digits_iff.mpr ⟨List.append_ne_nil_of_left_ne_nil hnil _, List.forall_mem_append.mpr
      ⟨hdigits, List.forall_mem_singleton.mpr (isDigit_digitChar hd)⟩⟩
  source := IsSourceText.append_iff.mpr
    ⟨h.source, List.forall_mem_singleton.mpr (digitChar_facts hd).2⟩
  short := by
    have hshort := h.short most rfl
    simpa using hshort
  value := by
    have hvalue : n = digitsValue digits := by exact_mod_cast h.value
    rw [hvalue, digitsValue, digitsValue, List.foldl_append]
    simp [(digitChar_facts hd).1]

/-- A number below a power of ten has no more digits than the exponent says. -/
theorem exists_isCount_of_lt (h : n < 10 ^ (most + 1)) :
    ∃ digits, IsCount (some (most + 1)) digits n := by
  induction most generalizing n with
  | zero => exact ⟨_, isCount_digit (by simp) (by simpa using h)⟩
  | succ most ih =>
      have hfront : n / 10 < 10 ^ (most + 1) := by
        rw [Nat.div_lt_iff_lt_mul (by decide), ← Nat.pow_succ]
        exact h
      obtain ⟨digits, hdigits⟩ := ih hfront
      have hpush := hdigits.push (Nat.mod_lt n (by decide : 10 > 0))
      rw [Nat.div_add_mod] at hpush
      exact ⟨_, hpush⟩

theorem IsSayableCount.exists_digits (h : IsSayableCount count) :
    ∃ digits, IsCount (some digitLimit) digits count := by
  obtain ⟨n, rfl⟩ := Int.eq_ofNat_of_zero_le h.1
  have hn := h.2
  obtain ⟨most, hmost⟩ : ∃ most, digitLimit = most + 1 := ⟨_, rfl⟩
  rw [hmost] at hn ⊢
  exact exists_isCount_of_lt (by exact_mod_cast hn)

/-! ## Everything that can be said can be written -/

theorem exists_writesIds (hids : ids ≠ []) (hsayable : ∀ id ∈ ids, IsSayableId processes id) :
    ∃ list, WritesIds (some digitLimit) ids list := by
  induction ids with
  | nil => exact absurd rfl hids
  | cons id ids ih =>
      rw [List.forall_mem_cons] at hsayable
      obtain ⟨digits, hdigits⟩ := hsayable.1.1.exists_digits
      by_cases hnil : ids = []
      · exact ⟨digits, hnil ▸ .last hdigits⟩
      · obtain ⟨list, hlist⟩ := ih hnil hsayable.2
        exact ⟨_, .next hdigits hlist⟩

theorem Expr.Sayable.exists_text (h : Expr.Sayable processes names e) :
    ∃ text, WritesExpr (some digitLimit) e text := by
  induction e with
  | own => exact ⟨_, .own List.mem_cons_self⟩
  | parameter name => exact ⟨_, .parameter⟩
  | literal value =>
      obtain ⟨text, hform, hvalue⟩ := h
      exact ⟨text, .literal hform hvalue⟩
  | binary op left right ihleft ihright =>
      obtain ⟨_, hleft⟩ := ihleft h.1
      obtain ⟨_, hright⟩ := ihright h.2
      exact ⟨_, .binary hleft hright⟩
  | aggregate how withOwn => exact ⟨_, .aggregate⟩
  | aggregateFrom how senders withOwn =>
      obtain ⟨_, hlist⟩ := exists_writesIds h.1 h.2
      exact ⟨_, .aggregateFrom hlist⟩
  | other => exact ⟨_, .other⟩
  | valueFrom sender =>
      obtain ⟨_, hdigits⟩ := h.1.exists_digits
      exact ⟨_, .valueFrom hdigits⟩
  | foreign kind => exact h.elim

theorem Predicate.Sayable.exists_text (h : Predicate.Sayable processes names p) :
    ∃ text, WritesPredicate (some digitLimit) p text := by
  induction p with
  | receivedAny => exact ⟨_, .receivedAny⟩
  | receivedAll => exact ⟨_, .receivedAll⟩
  | receivedAtLeast count =>
      obtain ⟨_, hdigits⟩ := IsSayableCount.exists_digits h
      exact ⟨_, .receivedAtLeast hdigits⟩
  | receivedMajority => exact ⟨_, .receivedMajority⟩
  | receivedDiff name =>
      obtain rfl : name = "x" := h
      exact ⟨_, .receivedDiff⟩
  | receivedFrom sender =>
      obtain ⟨_, hdigits⟩ := h.1.exists_digits
      exact ⟨_, .receivedFrom hdigits⟩
  | isLeader => exact ⟨_, .isLeader⟩
  | compare op left right =>
      obtain ⟨_, hleft⟩ := h.1.exists_text
      obtain ⟨_, hright⟩ := h.2.exists_text
      exact ⟨_, .compare hleft hright⟩
  | conj left right ihleft ihright =>
      obtain ⟨_, hleft⟩ := ihleft h.1
      obtain ⟨_, hright⟩ := ihright h.2
      exact ⟨_, .conj hleft hright⟩
  | disj left right ihleft ihright =>
      obtain ⟨_, hleft⟩ := ihleft h.1
      obtain ⟨_, hright⟩ := ihright h.2
      exact ⟨_, .disj hleft hright⟩
  | neg operand ih =>
      obtain ⟨_, hoperand⟩ := ih h
      exact ⟨_, .neg hoperand⟩
  | constant value => exact h.elim
  | brokenNegation => exact h.elim
  | foreign kind => exact h.elim

theorem Rule.Sayable.exists_lines (h : Rule.Sayable processes names rule) :
    ∃ lines, WritesRule (some digitLimit) rule lines := by
  induction rule with
  | assign target value =>
      obtain ⟨_, hvalue⟩ := h.2.exists_text
      rcases h.1 with rfl | rfl
      · exact ⟨_, .assign .plain List.mem_cons_self hvalue⟩
      · exact ⟨_, .assign (.indexed List.mem_cons_self) List.mem_cons_self hvalue⟩
  | combine how => exact ⟨_, .combine⟩
  | ifDifferent different same =>
      obtain ⟨_, hdifferent⟩ := h.1.exists_text
      obtain ⟨_, hsame⟩ := h.2.exists_text
      exact ⟨_, .ifDifferent hdifferent hsame⟩
  | onlyIf condition rule ih =>
      obtain ⟨_, hcondition⟩ := h.1.exists_text
      obtain ⟨_, hrule⟩ := ih h.2
      exact ⟨_, .onlyIf hcondition hrule⟩
  | choose condition yes no ihyes ihno =>
      obtain ⟨_, hcondition⟩ := h.1.exists_text
      obtain ⟨_, hyes⟩ := ihyes h.2.1
      obtain ⟨_, hno⟩ := ihno h.2.2
      exact ⟨_, .choose hcondition hyes hno⟩
  | foreign kind => exact h.elim

theorem Phase.Sayable.exists_header {phase : Phase Float}
    (h : Phase.Sayable processes names phase) :
    ∃ header, WritesHeader (some digitLimit) phase.kind phase.after header := by
  obtain ⟨kind, rule, after⟩ := phase
  cases kind with
  | afterRounds =>
      obtain ⟨count, hcount, hsayable⟩ := h.rounds rfl
      obtain rfl : after = some count := hcount
      obtain ⟨_, hdigits⟩ := hsayable.exists_digits
      exact ⟨_, .afterRounds hdigits⟩
  | eachRound =>
      obtain rfl : after = none := h.other (by simp)
      exact ⟨_, .eachRound⟩
  | firstRound =>
      obtain rfl : after = none := h.other (by simp)
      exact ⟨_, .firstRound⟩
  | untilConsensus =>
      obtain rfl : after = none := h.other (by simp)
      exact ⟨_, .untilConsensus⟩
  | atEnd =>
      obtain rfl : after = none := h.other (by simp)
      exact ⟨_, .atEnd⟩

theorem exists_writesPhases (h : ∀ phase ∈ phases, Phase.Sayable processes names phase) :
    ∃ written, WritesPhases (some digitLimit) phases written := by
  induction phases with
  | nil => exact ⟨_, .nil⟩
  | cons phase phases ih =>
      rw [List.forall_mem_cons] at h
      obtain ⟨_, hheader⟩ := h.1.exists_header
      obtain ⟨_, hrule⟩ := h.1.rule.exists_lines
      obtain ⟨_, hrest⟩ := ih h.2
      exact ⟨_, .cons hheader hrule hrest⟩

/-! ## Reading back what is written -/

/-- Phases that can be said, at most one of them for the end, can be written; and
each text of an UPDATE RULE section in which they are written is read as exactly
these phases, whatever sections follow. -/
theorem written_phases_read_back
    (hsayable : ∀ phase ∈ phases, Phase.Sayable processes names phase)
    (hend : phases.countP Phase.isEnd ≤ 1) :
    (∃ written, WritesPhases (some digitLimit) phases written) ∧
      ∀ written, WritesPhases (some digitLimit) phases written →
        texts (contentLines ((updateSection written).flatMap fun line => line ++ ['\n'])) =
          updateSection written ∧
        ∀ lines others, texts lines = updateSection written →
          (∀ line ∈ others.head?, isHeader line = true) →
            readOptional .updateRule [] (readPhases (rulesVocabulary processes names) false)
              (lines ++ others) = .ok (phases, others) := by
  refine ⟨exists_writesPhases hsayable, fun written hwritten => ⟨?_, ?_⟩⟩
  · have hwhole : ∀ line ∈ updateSection written, ∀ c ∈ line, isLineEnd c = false :=
      List.forall_mem_cons.mpr
        ⟨by decide, fun line hline => (hwritten.isWrittenLine hsayable line hline).whole⟩
    rw [texts_contentLines, lines_flatMap hwhole, hwritten.contents_eq hsayable]
  · exact fun lines others => hwritten.readOptional_eq hsayable hend

/-- A choice within a condition, a rule after some rounds, and a rule for the
end. -/
def nestedPhases : List (Phase Float) :=
  [{ kind := .firstRound
     rule := .onlyIf (.conj .receivedAny (.neg .isLeader))
       (.choose (.compare .ge (.aggregate .max true) (.parameter "gain"))
         (.assign (.plain "x") (.binary .mul (.literal 0.5) .other))
         (.ifDifferent (.valueFrom 2) .own)) },
   { kind := .afterRounds
     rule := .assign (.indexed "x") (.aggregateFrom .avg [1, 3] false)
     after := some 2 },
   { kind := .atEnd, rule := .combine .midpoint }]

/-- The lines in which they are written. -/
def nestedLines : List (List Char) :=
  ["FIRST ROUND:",
    "if (received_any and (not self is leader)) then",
    "if (max(all) >= gain) then",
    "x ← (0.5 * received_other)",
    "else",
    "IF_RECEIVED_DIFF_THEN(value_from(2), self)",
    "end",
    "end",
    "AFTER 2 ROUNDS:",
    "x_i <- avg(inbox_from(1, 3))",
    "END:",
    "midpoint"].map String.toList

/-- A count of one digit can be said. -/
theorem isSayableCount_digit (hd : d < 10) : IsSayableCount d := by
  obtain ⟨most, hmost⟩ : ∃ most, digitLimit = most + 1 := ⟨_, rfl⟩
  have hpower : (0 : Int) < 10 ^ most := Int.pow_pos (by decide)
  refine ⟨Int.natCast_nonneg d, ?_⟩
  rw [hmost, Int.pow_succ]
  omega

theorem isNumeral_half : IsNumeral "0.5".toList := by
  have hdigits : Digits ['0'] ∧ Digits ['5'] := by
    constructor <;> exact List.forall_mem_singleton.mpr (by decide)
  have hmantissa : IsMantissa (['0'] ++ '.' :: ['5']) :=
    .pointed (.inl (List.cons_ne_nil _ _)) hdigits.1 hdigits.2
  exact .unsigned hmantissa .absent

theorem readReal?_half : readReal? "0.5".toList = some 0.5 := by
  decide +kernel

theorem sayable_nestedPhases : ∀ phase ∈ nestedPhases, Phase.Sayable 3 ["gain"] phase := by
  have hid : ∀ d : Nat, d < 4 → 0 < d → IsSayableId 3 d := fun d hd hpositive =>
    ⟨isSayableCount_digit (by omega), by omega, by omega⟩
  have hgain : IsPlainName "gain" := ⟨by decide, by decide, by decide, by decide, by decide⟩
  have hhalf : Expr.Sayable 3 ["gain"] (.literal 0.5) := ⟨_, isNumeral_half, readReal?_half⟩
  have hids : ∀ id ∈ [(1 : Int), 3], IsSayableId 3 id := by
    rw [List.forall_mem_cons, List.forall_mem_singleton]
    exact ⟨hid 1 (by decide) (by decide), hid 3 (by decide) (by decide)⟩
  rw [nestedPhases, List.forall_mem_cons, List.forall_mem_cons, List.forall_mem_singleton]
  refine ⟨⟨⟨?condition, ?test, ?yes, ?no⟩, nofun, fun _ => rfl⟩,
    ⟨⟨.inr rfl, List.cons_ne_nil _ _, hids⟩, ?rounds, nofun⟩, ⟨trivial, nofun, fun _ => rfl⟩⟩
  case condition => exact ⟨trivial, trivial⟩
  case test => exact ⟨trivial, List.mem_singleton_self _, hgain⟩
  case yes => exact ⟨.inl rfl, hhalf, trivial⟩
  case no => exact ⟨hid 2 (by decide) (by decide), trivial⟩
  case rounds => exact fun _ => ⟨2, rfl, isSayableCount_digit (by decide : 2 < 10)⟩

theorem writes_nestedPhases :
    WritesPhases (some digitLimit) nestedPhases nestedLines := by
  have hcount : ∀ d < 10, IsCount (some digitLimit) [Nat.digitChar d] d :=
    fun d hd => isCount_digit (by simp [digitLimit]) hd
  have hcondition : WritesPredicate (some digitLimit) (.conj .receivedAny (.neg .isLeader)) _ :=
    .conj .receivedAny (.neg .isLeader)
  have htest : WritesPredicate (some digitLimit)
      (.compare .ge (.aggregate .max true) (.parameter "gain")) _ := .compare .aggregate .parameter
  have hhalf : WritesExpr (some digitLimit) (.literal 0.5) "0.5".toList :=
    .literal isNumeral_half readReal?_half
  have hyes : WritesRule (some digitLimit)
      (.assign (.plain "x") (.binary .mul (.literal 0.5) .other)) _ :=
    .assign .plain List.mem_cons_self (.binary hhalf .other)
  have hno : WritesRule (some digitLimit) (.ifDifferent (.valueFrom 2) .own) _ :=
    .ifDifferent (.valueFrom (hcount 2 (by decide))) (.own List.mem_cons_self)
  have hfirst := WritesRule.onlyIf hcondition (.choose htest hyes hno)
  have hids : WritesIds (some digitLimit) [1, 3] _ :=
    .next (hcount 1 (by decide)) (.last (hcount 3 (by decide)))
  have hindexed : WritesTarget (.indexed "x") "x_i".toList := .indexed (by decide)
  have harrow : "<-" ∈ ["←", "<-"] := by decide
  have hlater : WritesRule (some digitLimit)
      (.assign (.indexed "x") (.aggregateFrom .avg [1, 3] false)) _ :=
    .assign hindexed harrow (.aggregateFrom hids)
  have hlast : WritesRule (some digitLimit) (.combine .midpoint) _ := .combine
  have hrounds : WritesHeader (some digitLimit) .afterRounds (some 2) _ :=
    .afterRounds (hcount 2 (by decide))
  have hwritten := WritesPhases.cons .firstRound hfirst
    (.cons hrounds hlater (.cons .atEnd hlast .nil))
  refine Eq.mp (congrArg (WritesPhases (some digitLimit) nestedPhases) ?lines) hwritten
  case lines => decide +kernel

/-- A conditional in a conditional, a wait and an end are read back from the text
of their section. -/
theorem nestedPhases_read_back :
    (∀ phase ∈ nestedPhases, Phase.Sayable 3 ["gain"] phase) ∧
      nestedPhases.countP Phase.isEnd ≤ 1 ∧
      WritesPhases (some digitLimit) nestedPhases nestedLines ∧
      readOptional .updateRule [] (readPhases (rulesVocabulary 3 ["gain"]) false)
        (contentLines ((updateSection nestedLines).flatMap fun line => line ++ ['\n'])) =
          .ok (nestedPhases, []) := by
  have hend : nestedPhases.countP Phase.isEnd ≤ 1 := by decide
  obtain ⟨hlines, hread⟩ := (written_phases_read_back sayable_nestedPhases hend).2 nestedLines
    writes_nestedPhases
  have hsection := hread _ [] hlines (by simp)
  rw [List.append_nil] at hsection
  exact ⟨sayable_nestedPhases, hend, writes_nestedPhases, hsection⟩

/-! ## Rules that are not read back -/

/-- The words of the language of rules, in small letters. -/
def languageWords : List String :=
  ["if", "then", "else", "end", "and", "or", "not", "is", "leader", "self", "x", "x_i",
    "if_received_diff_then", "received_any", "received_all", "received_majority",
    "received_at_least", "received_from", "received_diff", "received_other", "value_from", "inbox",
    "values", "all", "inbox_from", "all_from", "each", "first", "after", "until", "round",
    "rounds", "consensus"] ++ aggregations.map (·.1) ++ combinations.map (·.1)

/-- A parameter with a name that begins as the word for a message's value. -/
def shadowedPhase : Phase Float where
  kind := .eachRound
  rule := .assign (.plain "x") (.parameter "value_from_x")

/-- A power of ten of one digit more than the reader takes. -/
def longDigits : List Char :=
  '1' :: List.replicate digitLimit '0'

/-- A phase that waits so many rounds. -/
def latePhase : Phase Float where
  kind := .afterRounds
  rule := .combine .average
  after := some (digitsValue longDigits)

theorem isCount_longDigits : IsCount none longDigits (digitsValue longDigits) := by
  have hzero : ∀ c ∈ longDigits, c = '1' ∨ c = '0' := by
    intro c hc
    exact (List.mem_cons.mp hc).imp_right List.eq_of_mem_replicate
  refine ⟨digits_iff.mpr ⟨List.cons_ne_nil _ _, ?_⟩, ?_, nofun, rfl⟩
  · intro c hc
    rcases hzero c hc with rfl | rfl <;> decide
  · intro c hc
    rcases hzero c hc with rfl | rfl <;> decide

/-- Too many digits are no number. -/
theorem readNumber_ne_ok_of_long (hnumber : isNumber digits = true)
    (hlong : digitLimit < digits.length) : readNumber digits ≠ .ok n := by
  intro h
  have hread := (readInteger_eq_ok_iff.mp (mapError_eq_ok.mp h)).1
  rw [trimNumeral_eq (trimmed_of_isNumber hnumber)] at hread
  omega

theorem phaseHeader?_afterLine_ne_ok {found : Option PhaseHeader} (hnumber : isNumber digits = true)
    (hlong : digitLimit < digits.length) : phaseHeader? (0, afterLine digits) ≠ .ok found := by
  have heach : keyword? "EACH ROUND" (afterLine digits) = none := rfl
  have hfirst : keyword? "FIRST ROUND" (afterLine digits) = none := rfl
  intro h
  simp only [phaseHeader?, heach, hfirst, afterHeader?_afterLine hnumber] at h
  obtain ⟨rounds, hrounds, _⟩ := bind_eq_ok.mp h
  exact readNumber_ne_ok_of_long hnumber hlong (mapError_eq_ok.mp hrounds)

/-- The first line of phases is no malformed header. -/
theorem PhasesRead.exists_header {v : Vocabulary} {ended : Bool} {text : List Char}
    {rest : List (List Char)} (h : PhasesRead v ended (text :: rest) phases) :
    ∃ found, phaseHeader? (0, text) = .ok found := by
  cases h with
  | plain hheader _ _ _ => exact ⟨_, hheader⟩
  | onHeaderLine hheader _ _ _ _ => exact ⟨_, hheader⟩
  | onNextLine hheader _ _ _ _ _ => exact ⟨_, hheader⟩

/-- Not every rule is read back.  A declared parameter whose name is no word of
the language can be refused for how it begins, and a count for its length; and
there are trees that no text gives. -/
theorem not_every_rule_read_back :
    ("value_from_x" ∉ languageWords ∧ Settings.isReserved "value_from_x" = false ∧
        WritesPhases none [shadowedPhase] (["EACH ROUND:", "x ← value_from_x"].map String.toList) ∧
        readPhases (rulesVocabulary 1 ["value_from_x"]) false
          [(1, "EACH ROUND:".toList), (2, "x ← value_from_x".toList)] ≠ .ok [shadowedPhase]) ∧
      (WritesPhases none [latePhase] [afterLine longDigits, "average".toList] ∧
        readPhases (rulesVocabulary 1 []) false
          [(1, afterLine longDigits), (2, "average".toList)] ≠ .ok [latePhase]) ∧
      readPredicate (rulesVocabulary 1 []) (called "received_at_least" "-1".toList) ≠
        .ok (.receivedAtLeast (-1)) ∧
      readPredicate (rulesVocabulary 1 []) (called "received_diff" "y".toList) ≠
        .ok (.receivedDiff "y") ∧
      readExpr (rulesVocabulary 1 []) (called "avg" (called "inbox_from" [])) ≠
        .ok (.aggregateFrom .avg [] false) := by
  refine ⟨⟨by decide, by decide, ?_, ?_⟩, ⟨?_, ?_⟩, ?_, ?_, ?_⟩
  · exact .cons .eachRound (.assign .plain List.mem_cons_self .parameter) .nil
  · decide +kernel
  · exact .cons (.afterRounds isCount_longDigits) .combine .nil
  · intro h
    obtain ⟨found, hfound⟩ := (phasesRead_of_readPhases h).exists_header
    exact phaseHeader?_afterLine_ne_ok isCount_longDigits.number (by simp [longDigits]) hfound
  · decide +kernel
  · decide +kernel
  · decide +kernel

end LossyConsensus.Source
