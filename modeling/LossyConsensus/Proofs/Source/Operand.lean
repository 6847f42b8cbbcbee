/-
# Atoms

A text without operators is read as an operand exactly when it is an atom of the
grammar, and as the expression that the atom denotes.
-/

import LossyConsensus.Proofs.Source.Sender

namespace LossyConsensus.Source

open LossyConsensus.Decimal LossyConsensus.Protocol LossyConsensus.Text

variable {text argument source head : List Char} {e : Expr Float} {how : Aggregation}

/-! ## Aggregates -/

theorem aggregations_mem {word : String} (h : (word, how) ∈ aggregations) : word = how.word := by
  simp only [aggregations, List.map_cons, List.map_nil, List.mem_cons, Prod.mk.injEq,
    List.not_mem_nil, or_false] at h
  rcases h with ⟨rfl, rfl⟩ | ⟨rfl, rfl⟩ | ⟨rfl, rfl⟩ | ⟨rfl, rfl⟩ | ⟨rfl, rfl⟩ <;> rfl

theorem mem_aggregations (how : Aggregation) : (how.word, how) ∈ aggregations := by
  cases how <;> decide

theorem lookup_aggregations (how : Aggregation) : aggregations.lookup how.word = some how := by
  cases how <;> decide

/-- No aggregation's word begins another's. -/
theorem aggregation_eq_of_begins (first second : Aggregation)
    (h : first.word.toList <+: second.word.toList) : first = second := by
  revert h
  cases first <;> cases second <;> decide

/-- The aggregation that a text calls is unique. -/
theorem IsCall.aggregation_eq {first second : Aggregation} {other : List Char}
    (hfirst : IsCall first.word text argument) (hsecond : IsCall second.word text other) :
    first = second := by
  rcases begins_or_begins hfirst.word_begins hsecond.word_begins with h | h
  · exact aggregation_eq_of_begins first second h
  · exact (aggregation_eq_of_begins second first h).symm

theorem exists_of_aggregateCall? (h : aggregateCall? text = some (head, argument)) :
    ∃ how : Aggregation, call? how.word text = some (head, argument) := by
  rw [aggregateCall?, Option.filter_eq_some_iff] at h
  rcases List.exists_of_findSome?_eq_some h.1 with ⟨⟨word, how⟩, hmem, hcall⟩
  exact ⟨how, by rwa [← aggregations_mem hmem]⟩

theorem aggregateCall?_of_call? (htext : IsSourceText text)
    (h : call? how.word text = some (head, argument)) :
    aggregateCall? text = some (head, argument) := by
  rw [aggregateCall?, Option.filter_eq_some_iff]
  constructor
  · cases hfound : aggregations.findSome? fun entry => call? entry.1 text with
    | none =>
        rw [List.findSome?_eq_none_iff] at hfound
        have hnone : call? how.word text = none := hfound _ (mem_aggregations how)
        rw [hnone] at h
        cases h
    | some found =>
        rcases List.exists_of_findSome?_eq_some hfound with ⟨⟨word, other⟩, hmem, hcall⟩
        cases aggregations_mem hmem
        have hsame : other = how :=
          (isCall_of_call? htext hcall).aggregation_eq (isCall_of_call? htext h)
        rw [hsame] at hcall
        exact hcall.symm.trans h
  · have hline : '\n' ∉ argument := by
      intro hmem
      exact absurd (htext '\n' ((isCall_of_call? htext h).argument_mem hmem)) (by decide)
    simpa [isOneLine] using hline

/-! ## Sources -/

/-- A comparison of the small form of a text with a word. -/
theorem beq_iff_isWordOf {word : String} :
    (String.ofList (text.map Char.toLower) == word) = true ↔ IsWordOf word text := by
  rw [beq_iff_eq, IsWordOf]
  constructor
  · rintro rfl
    rw [String.toList_ofList]
  · intro h
    rw [h, String.ofList_toList]

theorem not_isWordOf_of_mem (word : String) (h : '(' ∈ text) (hword : '(' ∉ word.toList) :
    (String.ofList (text.map Char.toLower) == word) = false := by
  rw [Bool.eq_false_iff, Ne, beq_iff_isWordOf]
  intro hsame
  exact hword (hsame.mem h (by decide))

theorem senderList?_eq_some {list : List Char} (h : senderList? source = some (head, list)) :
    call? "inbox_from" source = some (head, list) ∨ call? "all_from" source = some (head, list) := by
  rw [senderList?, Option.filter_eq_some_iff, Option.orElse_eq_orElse, Option.orElse_eq_or,
    Option.or_eq_some_iff] at h
  exact h.1.imp_right And.right

theorem senderList?_of_call? {list : List Char} (hlist : isSenderList list = true)
    (h : call? "inbox_from" source = some (head, list) ∨
      (call? "inbox_from" source = none ∧ call? "all_from" source = some (head, list))) :
    senderList? source = some (head, list) := by
  rw [senderList?, Option.filter_eq_some_iff, Option.orElse_eq_orElse, Option.orElse_eq_or,
    Option.or_eq_some_iff]
  exact ⟨h, hlist⟩

theorem call?_inbox_eq_none {list : List Char} (h : IsSourceText source)
    (hcall : IsCall "all_from" source list) : call? "inbox_from" source = none := by
  cases hother : call? "inbox_from" source with
  | none => rfl
  | some found =>
      have hbegins := begins_or_begins hcall.word_begins (isCall_of_call? h hother).word_begins
      exact absurd hbegins (by decide)

/-- The parts of a call that a reader finds. -/
theorem call?_parts {word : String} (h : IsSourceText text)
    (hcall : call? word text = some (head, argument)) :
    lower head = word.toList ∧ IsSourceText argument ∧ '(' ∈ text := by
  have hform := isCall_of_call? h hcall
  refine ⟨?_, fun c hc => h c (hform.argument_mem hc), hform.round_mem⟩
  rcases (call?_eq_some_iff h).mp hcall with ⟨hword, _, _, rfl⟩
  rw [IsSourceText.append_iff] at h
  rw [lower_eq h.1, hword]

/-- An aggregate over the messages of some senders is read when the senders
are. -/
theorem readAggregate_senders {word : String} {list : List Char} (h : IsSourceText source)
    (hcall : call? word source = some (head, list))
    (hfound : senderList? source = some (head, list)) :
    readAggregate {} how source = .ok e ↔ ∃ ids, IsIdList (some digitLimit) list ids ∧
      .aggregateFrom how ids (word.toList == "all_from".toList) = e := by
  rcases call?_parts h hcall with ⟨hlower, hlist, hround⟩
  have hinbox := not_isWordOf_of_mem "inbox" hround (by decide)
  have hvalues := not_isWordOf_of_mem "values" hround (by decide)
  have hall := not_isWordOf_of_mem "all" hround (by decide)
  simp only [readAggregate, lower_eq h, hinbox, hvalues, hall, hfound, Bool.or_false,
    Bool.false_eq_true, if_false, bind_eq_ok, pure_eq_ok, readSenders_eq_ok_iff hlist, hlower]

theorem isSource_of_readAggregate (h : IsSourceText source)
    (hread : readAggregate {} how source = .ok e) : IsSource (some digitLimit) how source e := by
  cases hfound : senderList? source with
  | none =>
      simp only [readAggregate, lower_eq h, hfound] at hread
      split at hread
      · next hword =>
        cases hread
        rw [Bool.or_eq_true, beq_iff_isWordOf, beq_iff_isWordOf] at hword
        rcases hword with hword | hword
        · exact .inbox hword
        · exact .values hword
      · split at hread
        · next hword =>
          cases hread
          exact .all (beq_iff_isWordOf.mp hword)
        · cases hread
  | some found =>
      rcases found with ⟨head, list⟩
      rcases senderList?_eq_some hfound with hcall | hcall
      · rcases (readAggregate_senders h hcall hfound).mp hread with ⟨ids, hids, rfl⟩
        exact .inboxFrom (isCall_of_call? h hcall) hids
      · rcases (readAggregate_senders h hcall hfound).mp hread with ⟨ids, hids, rfl⟩
        exact .allFrom (isCall_of_call? h hcall) hids

theorem readAggregate_of_isSource (h : IsSourceText source)
    (hsource : IsSource (some digitLimit) how source e) : readAggregate {} how source = .ok e := by
  have hword : ∀ {word : String}, IsWordOf word source →
      String.ofList (source.map Char.toLower) = word :=
    fun hword => beq_iff_eq.mp (beq_iff_isWordOf.mpr hword)
  cases hsource with
  | inbox hinbox =>
      simp only [readAggregate, lower_eq h, hword hinbox]
      rfl
  | values hvalues =>
      simp only [readAggregate, lower_eq h, hword hvalues]
      rfl
  | all hall =>
      simp only [readAggregate, lower_eq h, hword hall]
      rfl
  | inboxFrom hcall hids =>
      rcases hcall.exists_call? h with ⟨head, _, hread⟩
      exact (readAggregate_senders h hread
        (senderList?_of_call? hids.isSenderList (.inl hread))).mpr ⟨_, hids, rfl⟩
  | allFrom hcall hids =>
      rcases hcall.exists_call? h with ⟨head, _, hread⟩
      exact (readAggregate_senders h hread
        (senderList?_of_call? hids.isSenderList (.inr ⟨call?_inbox_eq_none h hcall, hread⟩))).mpr
        ⟨_, hids, rfl⟩

/-! ## Operands by their first word -/

theorem readOperand_aggregate (h : IsSourceText text)
    (hcall : call? how.word text = some (head, argument)) :
    readOperand {} text = readAggregate {} how (trim argument) := by
  simp only [readOperand, aggregateCall?_of_call? h hcall, (call?_parts h hcall).1,
    String.ofList_toList, lookup_aggregations]

theorem aggregateCall?_eq_none (h : IsSourceText text)
    (hno : ∀ (how : Aggregation) (argument : List Char), ¬ IsCall how.word text argument) :
    aggregateCall? text = none := by
  cases hfound : aggregateCall? text with
  | none => rfl
  | some found =>
      rcases exists_of_aggregateCall? hfound with ⟨how, hcall⟩
      exact absurd (isCall_of_call? h hcall) (hno how found.2)

/-- A text that begins with another word than those of the aggregations calls
none of them. -/
theorem not_isCall_of_begins {word : String} (hword : word.toList <+: text.map Char.toLower)
    (hno : ∀ how : Aggregation, ¬ (how.word.toList <+: word.toList ∨ word.toList <+: how.word.toList))
    (how : Aggregation) (argument : List Char) : ¬ IsCall how.word text argument :=
  fun hcall => hno how (begins_or_begins hcall.word_begins hword)

theorem isNumber_alpha {digits : List Char} {c : Char} (h : isNumber digits = true)
    (hc : c ∈ digits) : c.isAlpha = false :=
  isAlpha_of_isDigit ((digits_iff.mp h).2 c hc)

/-- Between blanks a number has no letters. -/
theorem padded_alpha {front digits back : List Char} (hfront : Blanks front)
    (hnumber : isNumber digits = true) (hback : Blanks back) :
    ∀ c ∈ front ++ digits ++ back, c.isAlpha = false := by
  have hblank : ∀ {c : Char}, isBlank c = true → c.isAlpha = false := by
    intro c hc
    simpa using forall_isBlank (fun c => !c.isAlpha) (by decide) hc
  intro c hc
  rcases List.mem_append.mp hc with hc | hc
  · rcases List.mem_append.mp hc with hc | hc
    · exact hblank (hfront c hc)
    · exact isNumber_alpha hnumber hc
  · exact hblank (hback c hc)

theorem startsWith_lower_iff (h : IsSourceText text) {word : List Char} :
    startsWith word (lower text) = true ↔ word <+: text.map Char.toLower := by
  rw [startsWith_iff, lower_eq h]

theorem aggregateCall?_eq_none_of_valueFrom (h : IsSourceText text)
    (hword : "value_from".toList <+: text.map Char.toLower) : aggregateCall? text = none :=
  aggregateCall?_eq_none h (not_isCall_of_begins hword (by intro how; cases how <;> decide))

theorem exists_call_of_readOperand (h : IsSourceText text)
    (hword : "value_from".toList <+: text.map Char.toLower) (hread : readOperand {} text = .ok e) :
    ∃ front digits back id, Blanks front ∧ Blanks back ∧
      IsCall "value_from" text (front ++ digits ++ back) ∧ IsId (some digitLimit) digits id ∧
      .valueFrom id = e := by
  have hnone := aggregateCall?_eq_none_of_valueFrom h hword
  have hstarts := (startsWith_lower_iff h).mpr hword
  simp only [readOperand, hnone, hstarts, if_true] at hread
  rw [lower_eq h] at hread
  split at hread
  · next argument hargument =>
    split at hread
    · next hnumber =>
      obtain ⟨⟨head, found⟩, hcall, rfl⟩ := Option.map_eq_some_iff.mp hargument
      obtain ⟨id, hid, rfl⟩ := map_eq_ok.mp hread
      have hsmall := isCall_of_call? h.lower hcall
      obtain ⟨front, back, hfront, hback, hparts⟩ := exists_trim found
      have hform : IsCall "value_from" text found := by
        apply (IsCall.lower_iff h ?_).mp hsmall
        rw [hparts]
        exact padded_alpha hfront hnumber hback
      have hsource : IsSourceText (trim found) := by
        apply IsSourceText.trim
        intro c hc
        exact h c (hform.argument_mem hc)
      obtain ⟨front', digits, back', hfront', hback', hinner, hid⟩ :=
        (readProcess_eq_ok_iff hsource).mp hid
      refine ⟨front ++ front', digits, back' ++ back, id, hfront.append hfront',
        hback'.append hback, ?_, hid, rfl⟩
      rw [hparts, hinner] at hform
      simpa using hform
    · cases hread
  · cases hread

theorem readOperand_of_call {front digits back : List Char} {id : Int} (h : IsSourceText text)
    (hfront : Blanks front) (hback : Blanks back)
    (hcall : IsCall "value_from" text (front ++ digits ++ back))
    (hid : IsId (some digitLimit) digits id) : readOperand {} text = .ok (.valueFrom id) := by
  have hsmall := (IsCall.lower_iff h (padded_alpha hfront hid.number hback)).mpr hcall
  obtain ⟨head, _, hread⟩ := hsmall.exists_call? h.lower
  have hdigits : IsSourceText digits := by
    intro c hc
    exact h c (hcall.argument_mem (by simp [hc]))
  have hprocess : ({} : Vocabulary).readProcess "value_from" digits = .ok id :=
    (readProcess_eq_ok_iff hdigits).mpr ⟨[], digits, [], .nil, .nil, by simp, hid⟩
  have hnone := aggregateCall?_eq_none_of_valueFrom h hcall.word_begins
  have hstarts := (startsWith_lower_iff h).mpr hcall.word_begins
  simp only [readOperand, hnone, hstarts, if_true]
  rw [lower_eq h]
  simp only [hread, Option.map_some, (trimmed_of_isNumber hid.number).trim_eq hfront hback,
    hid.number, if_true, hprocess]
  rfl

/-- The texts that name the value from a sender. -/
theorem readOperand_valueFrom_iff (h : IsSourceText text)
    (hword : "value_from".toList <+: text.map Char.toLower) :
    readOperand {} text = .ok e ↔ ∃ front digits back id, Blanks front ∧ Blanks back ∧
      IsCall "value_from" text (front ++ digits ++ back) ∧ IsId (some digitLimit) digits id ∧
      .valueFrom id = e := by
  constructor
  · exact exists_call_of_readOperand h hword
  · rintro ⟨front, digits, back, id, hfront, hback, hcall, hid, rfl⟩
    exact readOperand_of_call h hfront hback hcall hid

/-! ## The received other value -/

theorem trimmed_received : Trimmed "received_other".toList :=
  ⟨⟨'r', _, rfl, by decide⟩, ⟨"received_othe".toList, 'r', rfl, by decide⟩⟩

/-- What follows the word decides. -/
theorem otherArgument?_of_after {rest : List Char}
    (h : after? "received_other".toList text = some rest) :
    otherArgument? text =
      if (trimLeft rest).isEmpty then some none
      else (parenthesised? (trimLeft rest)).bind fun argument =>
        if isWord (trim argument) then some (some (trim argument)) else none := by
  rw [otherArgument?, h]
  rfl

theorem otherArgument?_eq_none (h : after? "received_other".toList text = none) :
    otherArgument? text = none := by
  rw [otherArgument?, h]
  rfl

theorem otherArgument?_round {gap : List Char} (hgap : Blanks gap) (argument : List Char) :
    otherArgument? ("received_other".toList ++ (gap ++ '(' :: (argument ++ [')']))) =
      if isWord (trim argument) then some (some (trim argument)) else none := by
  have hround : trimLeft (gap ++ '(' :: (argument ++ [')'])) = '(' :: (argument ++ [')']) := by
    rw [trimLeft_append hgap, trimLeft_cons (by decide)]
  rw [otherArgument?_of_after (after?_append _ _), hround, List.isEmpty_cons,
    if_neg Bool.false_ne_true, parenthesised?_eq_some_iff.mpr rfl, Option.bind_some]

/-- The texts in which the received other value is recognised. -/
theorem otherArgument?_cases {found : Option (List Char)} (htext : Trimmed text)
    (h : otherArgument? text = some found) :
    (found = none ∧ text = "received_other".toList) ∨
      ∃ gap argument, Blanks gap ∧ found = some (trim argument) ∧
        text = "received_other".toList ++ (gap ++ '(' :: (argument ++ [')'])) := by
  cases hafter : after? "received_other".toList text with
  | none =>
      rw [otherArgument?_eq_none hafter] at h
      cases h
  | some rest =>
      have hparts := after?_eq_some_iff.mp hafter
      rcases exists_trimLeft rest with ⟨gap, hgap, hrest⟩
      rw [otherArgument?_of_after hafter] at h
      split at h
      · next hempty =>
        left
        rw [List.isEmpty_iff.mp hempty, List.append_nil] at hrest
        have htrim := trimmed_received.trim_eq Blanks.nil hgap
        rw [List.nil_append, ← hrest, ← hparts, htext.trim_self] at htrim
        exact ⟨(Option.some.inj h).symm, htrim⟩
      · right
        rcases Option.bind_eq_some_iff.mp h with ⟨argument, hround, hword⟩
        rw [parenthesised?_eq_some_iff.mp hround] at hrest
        rw [hrest] at hparts
        refine ⟨gap, argument, hgap, ?_, hparts⟩
        split at hword
        · exact (Option.some.inj hword).symm
        · cases hword

/-! ## Atoms -/

/-- What is neither an aggregate nor a value from a sender. -/
theorem readOperand_word (h : IsSourceText text) (hnone : aggregateCall? text = none)
    (hvalue : ¬ "value_from".toList <+: text.map Char.toLower) :
    readOperand {} text =
      match otherArgument? text with
      | some none => .ok .other
      | some (some argument) =>
          if String.ofList argument == "x" then .ok .other
          else .error (.refused (.otherVariable "x" (String.ofList argument)))
      | none =>
          if ownWords.contains text then .ok .own
          else if !isIdentifier text then .error (.refused (.unknownToken (String.ofList text)))
          else .ok (.parameter (String.ofList text)) := by
  have hstarts : startsWith "value_from".toList (lower text) = false := by
    rwa [Bool.eq_false_iff, Ne, startsWith_lower_iff h]
  simp only [readOperand, hnone, hstarts, Bool.false_eq_true, if_false]
  rfl

theorem isAtom_of_aggregateCall? (h : IsSourceText text)
    (hfound : aggregateCall? text = some (head, argument)) (hread : readOperand {} text = .ok e) :
    IsAtom (some digitLimit) text e := by
  obtain ⟨how, hcall⟩ := exists_of_aggregateCall? hfound
  have hform := isCall_of_call? h hcall
  obtain ⟨front, back, hfront, hback, hparts⟩ := exists_trim argument
  rw [readOperand_aggregate h hcall] at hread
  have hsource : IsSourceText (trim argument) :=
    IsSourceText.trim fun c hc => h c (hform.argument_mem hc)
  have hrange := isSource_of_readAggregate hsource hread
  rw [hparts] at hform
  exact .aggregate hform hfront hback hrange

/-- The received other value names the state variable, if it names any. -/
theorem isAtom_of_otherArgument? (h : IsSourceText text) (htrim : Trimmed text)
    (hnone : aggregateCall? text = none) (hvalue : ¬ "value_from".toList <+: text.map Char.toLower)
    {found : Option (List Char)} (hother : otherArgument? text = some found)
    (hread : readOperand {} text = .ok e) : IsAtom (some digitLimit) text e := by
  rw [readOperand_word h hnone hvalue, hother] at hread
  rcases otherArgument?_cases htrim hother with ⟨rfl, rfl⟩ | ⟨gap, argument, hgap, rfl, rfl⟩
  · cases hread
    exact .other
  · dsimp only at hread
    split at hread
    · next hname =>
      cases hread
      have hx : trim argument = ['x'] := by
        rw [← String.toList_ofList (l := trim argument), beq_iff_eq.mp hname]
        rfl
      obtain ⟨front, back, hfront, hback, hparts⟩ := exists_trim argument
      rw [hparts, hx]
      exact .otherOf hgap hfront hback
    · cases hread

/-- A name is that of the process's own value or of a parameter. -/
theorem isAtom_of_name (h : IsSourceText text) (hnone : aggregateCall? text = none)
    (hvalue : ¬ "value_from".toList <+: text.map Char.toLower)
    (hother : otherArgument? text = none) (hread : readOperand {} text = .ok e) :
    IsAtom (some digitLimit) text e := by
  rw [readOperand_word h hnone hvalue, hother] at hread
  dsimp only at hread
  split at hread
  · next hown =>
    cases hread
    exact .own (List.contains_iff_mem.mp hown)
  · next hown =>
    split at hread
    · cases hread
    · next hidentifier =>
      cases hread
      refine .parameter (by simpa using hidentifier) ?_ ?_ hvalue
      · intro hmem
        exact hown (List.contains_iff_mem.mpr hmem)
      · rintro rfl
        revert hother
        decide

/-- What is read as an operand is an atom. -/
theorem isAtom_of_readOperand (h : IsSourceText text) (htrim : Trimmed text)
    (hread : readOperand {} text = .ok e) : IsAtom (some digitLimit) text e := by
  cases hfound : aggregateCall? text with
  | some found => exact isAtom_of_aggregateCall? h hfound hread
  | none =>
      by_cases hvalue : "value_from".toList <+: text.map Char.toLower
      · obtain ⟨front, digits, back, id, hfront, hback, hcall, hid, rfl⟩ :=
          (readOperand_valueFrom_iff h hvalue).mp hread
        exact .valueFrom hcall hfront hback hid
      · cases hother : otherArgument? text with
        | some found => exact isAtom_of_otherArgument? h htrim hfound hvalue hother hread
        | none => exact isAtom_of_name h hfound hvalue hother hread

theorem readOperand_otherOf {gap front back : List Char} (hgap : Blanks gap)
    (hfront : Blanks front) (hback : Blanks back)
    (htext : text = "received_other".toList ++ (gap ++ '(' :: (front ++ ['x'] ++ back ++ [')'])))
    (h : IsSourceText text) : readOperand {} text = .ok .other := by
  have hbegins : "received_other".toList <+: text.map Char.toLower := by
    rw [htext, List.map_append]
    exact List.prefix_append _ _
  have hvalue : ¬ "value_from".toList <+: text.map Char.toLower :=
    fun hvalue => absurd (begins_or_begins hvalue hbegins) (by decide)
  have hnone : aggregateCall? text = none :=
    aggregateCall?_eq_none h (not_isCall_of_begins hbegins (by intro how; cases how <;> decide))
  have hname : Trimmed ['x'] := ⟨⟨'x', [], rfl, by decide⟩, ⟨[], 'x', rfl, by decide⟩⟩
  rw [readOperand_word h hnone hvalue, htext, otherArgument?_round hgap,
    hname.trim_eq hfront hback]
  rfl

/-- No name of a parameter is read as the received other value. -/
theorem otherArgument?_eq_none_of_isIdentifier (htrim : Trimmed text)
    (hidentifier : isIdentifier text = true) (hother : text ≠ "received_other".toList) :
    otherArgument? text = none := by
  cases hfound : otherArgument? text with
  | none => rfl
  | some found =>
      rcases otherArgument?_cases htrim hfound with ⟨_, htext⟩ | ⟨_, _, _, _, htext⟩
      · exact absurd htext hother
      · have hround : '(' ∈ text := by
          rw [htext]
          simp
        exact absurd (by decide) (plain_of_isIdentifier hidentifier '(' hround)

/-- An atom is read as the expression that it denotes. -/
theorem readOperand_of_isAtom (h : IsSourceText text) (hatom : IsAtom (some digitLimit) text e) :
    readOperand {} text = .ok e := by
  have htrim := hatom.trimmed
  cases hatom with
  | @aggregate how _ front source back _ hcall hfront hback hsource =>
      obtain ⟨head, _, hread⟩ := hcall.exists_call? h
      rw [readOperand_aggregate h hread, hsource.trimmed.trim_eq hfront hback]
      apply readAggregate_of_isSource _ hsource
      intro c hc
      exact h c (hcall.argument_mem (by simp [hc]))
  | valueFrom hcall hfront hback hid =>
      exact (readOperand_valueFrom_iff h hcall.word_begins).mpr
        ⟨_, _, _, _, hfront, hback, hcall, hid, rfl⟩
  | other => decide +kernel
  | otherOf hgap hfront hback => exact readOperand_otherOf hgap hfront hback rfl h
  | own hown =>
      rcases ownWords_cases hown with rfl | rfl | rfl | rfl | rfl <;> decide +kernel
  | parameter hidentifier hown hother hvalue =>
      have hround : '(' ∉ text := fun hmem =>
        plain_of_isIdentifier hidentifier '(' hmem (by decide)
      have hnone : aggregateCall? text = none :=
        aggregateCall?_eq_none h fun how argument hcall => hround hcall.round_mem
      rw [readOperand_word h hnone hvalue,
        otherArgument?_eq_none_of_isIdentifier htrim hidentifier hother]
      simp [hown, hidentifier]

end LossyConsensus.Source
