/-
# Written expressions are read back

A written expression derives from the grammar as one factor, so it is read as
the expression; the ids and the names that the reader compares with those it
knows are among them when the expression can be said.

Around an expression stand the words of predicates and rules.  Outside
parentheses a written expression has neither blanks nor signs of comparison, it
begins with no keyword, and every blank inside it stands before an operand, an
operator or a number.
-/

import LossyConsensus.Proofs.Source.Expr
import LossyConsensus.Proofs.Source.Writing
import LossyConsensus.Proofs.Text.Passage

namespace LossyConsensus.Source

open LossyConsensus.Decimal LossyConsensus.Protocol LossyConsensus.Text

variable {limit : Option Nat} {processes : Nat} {names : List String} {e : Expr Float}
  {ids : List Int} {id count : Int}
  {text word rest digits list argument head body following front back : List Char} {c : Char}

/-! ## Ids -/

theorem IsCount.isId (h : IsCount limit digits id) (hpositive : 1 ≤ id) : IsId limit digits id :=
  ⟨h.number, h.short, h.value, hpositive⟩

/-- Blanks may stand before a list of ids. -/
theorem IsIdList.blank (hblank : isBlank c = true) (h : IsIdList limit list ids) :
    IsIdList limit (c :: list) ids := by
  have hcons : ∀ {front : List Char}, Blanks front → Blanks (c :: front) := by
    intro front hfront d hd
    rcases List.mem_cons.mp hd with rfl | hd
    · exact hblank
    · exact hfront d hd
  cases h with
  | last hfront hid hback => exact .last (hcons hfront) hid hback
  | next hfront hid hback hrest => exact .next (hcons hfront) hid hback hrest

theorem WritesIds.isIdList (h : WritesIds limit ids list) (hpositive : ∀ id ∈ ids, 1 ≤ id) :
    IsIdList limit list ids := by
  induction h with
  | @last id digits hid =>
      have hlast := IsIdList.last .nil (hid.isId (hpositive id List.mem_cons_self)) .nil
      rwa [List.nil_append, List.append_nil] at hlast
  | @next id ids digits rest hid _ ih =>
      rw [List.forall_mem_cons] at hpositive
      have hrest := (ih hpositive.2).blank (by decide : isBlank ' ' = true)
      have hparts : digits ++ ", ".toList ++ rest = [] ++ digits ++ [] ++ ',' :: ' ' :: rest := by
        simp
      rw [hparts]
      exact .next .nil (hid.isId hpositive.1) .nil hrest

theorem WritesIds.isSourceText (h : WritesIds limit ids list) : IsSourceText list := by
  induction h with
  | last hid => exact hid.source
  | next hid _ ih =>
      have hcomma : IsSourceText ", ".toList := by
        show ∀ c ∈ ", ".toList, isSourceChar c = true
        decide
      exact IsSourceText.append_iff.mpr ⟨IsSourceText.append_iff.mpr ⟨hid.source, hcomma⟩, ih⟩

/-! ## Words and calls -/

theorem isCall_called {word : String} (h : word.toList.map Char.toLower = word.toList)
    (argument : List Char) : IsCall word (called word argument) argument :=
  .intro h Blanks.nil

theorem map_toLower_word (how : Aggregation) :
    how.word.toList.map Char.toLower = how.word.toList := by
  cases how <;> decide

theorem map_toLower_sendersWord (withOwn : Bool) :
    (sendersWord withOwn).toList.map Char.toLower = (sendersWord withOwn).toList := by
  cases withOwn <;> decide

theorem isSource_inbox (how : Aggregation) (withOwn : Bool) :
    IsSource limit how (inboxWord withOwn).toList (.aggregate how withOwn) := by
  cases withOwn with
  | false =>
      apply IsSource.inbox
      show "inbox".toList.map Char.toLower = "inbox".toList
      decide
  | true =>
      apply IsSource.all
      show "all".toList.map Char.toLower = "all".toList
      decide

theorem isSource_senders (how : Aggregation) (withOwn : Bool) (hids : IsIdList limit list ids) :
    IsSource limit how (called (sendersWord withOwn) list) (.aggregateFrom how ids withOwn) := by
  cases withOwn with
  | false => exact .inboxFrom (isCall_called (map_toLower_sendersWord false) list) hids
  | true => exact .allFrom (isCall_called (map_toLower_sendersWord true) list) hids

theorem isAtom_aggregate {how : Aggregation} (hsource : IsSource limit how text e) :
    IsAtom limit (called how.word text) e := by
  have hcall := isCall_called (map_toLower_word how) ([] ++ text ++ [])
  have hatom := IsAtom.aggregate hcall .nil .nil hsource
  rwa [List.nil_append, List.append_nil] at hatom

theorem isAtom_valueFrom (hid : IsId limit digits id) :
    IsAtom limit (called "value_from" digits) (.valueFrom id) := by
  have hcall : IsCall "value_from" (called "value_from" ([] ++ digits ++ [])) _ :=
    isCall_called (by decide) _
  have hatom := IsAtom.valueFrom hcall .nil .nil hid
  rwa [List.nil_append, List.append_nil] at hatom

/-- Over ASCII words a call is a source text when its argument is. -/
theorem isSourceText_called {word : String} (hword : IsSourceText word.toList)
    (hargument : IsSourceText argument) : IsSourceText (called word argument) := by
  have hopen : isSourceChar '(' = true := by decide
  have hclose : IsSourceText [')'] := by
    show ∀ c ∈ [')'], isSourceChar c = true
    decide
  exact IsSourceText.append_iff.mpr ⟨hword,
    IsSourceText.cons_iff.mpr ⟨hopen, IsSourceText.append_iff.mpr ⟨hargument, hclose⟩⟩⟩

theorem isSourceText_word (how : Aggregation) : IsSourceText how.word.toList := by
  show ∀ c ∈ how.word.toList, isSourceChar c = true
  cases how <;> decide

theorem isSourceText_inboxWord (withOwn : Bool) : IsSourceText (inboxWord withOwn).toList := by
  show ∀ c ∈ (inboxWord withOwn).toList, isSourceChar c = true
  cases withOwn <;> decide

theorem isSourceText_sendersWord (withOwn : Bool) : IsSourceText (sendersWord withOwn).toList := by
  show ∀ c ∈ (sendersWord withOwn).toList, isSourceChar c = true
  cases withOwn <;> decide

theorem isSourceText_ownWord (h : text ∈ ownWords) : IsSourceText text := by
  have hall : ∀ text ∈ ownWords, ∀ c ∈ text, isSourceChar c = true := by decide
  exact hall text h

theorem toNat_lt_of_word (h : isAsciiAlphanumeric c = true ∨ c = '_') : c.toNat < 128 := by
  rcases h with h | rfl
  · rw [isAsciiAlphanumeric, Bool.or_eq_true] at h
    rcases h with h | h
    · exact toNat_lt_of_isAlpha h
    · rw [Char.isDigit, Bool.and_eq_true, decide_eq_true_eq, decide_eq_true_eq] at h
      exact Nat.lt_of_le_of_lt (UInt32.le_iff_toNat_le.mp h.2) (by decide)
  · decide

theorem isSourceChar_of_word (h : isAsciiAlphanumeric c = true ∨ c = '_') :
    isSourceChar c = true := by
  have hor := forall_ascii (fun c => !(isAsciiAlphanumeric c || c == '_') || isSourceChar c)
    (by decide) (toNat_lt_of_word h)
  rcases h with h | rfl
  · simpa [h] using hor
  · decide

theorem isSourceText_identifier (h : isIdentifier text = true) : IsSourceText text := by
  rcases exists_of_isIdentifier h with ⟨first, rest, rfl, hfirst, hrest⟩
  rw [IsSourceText.cons_iff]
  exact ⟨isSourceChar_of_word (word_of_letter hfirst),
    fun c hc => isSourceChar_of_word (hrest c hc)⟩

/-! ## Numerals, atoms and operations -/

/-- To show something of all written expressions that can be said, show it of
numerals, of atoms in source characters, and of operations. -/
theorem WritesExpr.induct {motive : Expr Float → List Char → Prop}
    (hliteral : ∀ {value text}, IsNumeral text → readReal? text = some value →
      motive (.literal value) text)
    (hatom : ∀ {e text}, IsAtom limit text e → IsSourceText text →
      Expr.Sayable processes names e → motive e text)
    (hbinary : ∀ {op l r left right}, motive l left → motive r right →
      motive (.binary op l r) (enclosed (left ++ [' '] ++ op.sign :: ([' '] ++ right))))
    (h : WritesExpr limit e text) (hsayable : Expr.Sayable processes names e) : motive e text := by
  induction h with
  | own hown => exact hatom (.own hown) (isSourceText_ownWord hown) hsayable
  | @parameter name =>
      have hname := hsayable.2
      have hparameter : IsAtom limit name.toList _ :=
        .parameter hname.identifier hname.own hname.other hname.value
      rw [String.ofList_toList] at hparameter
      exact hatom hparameter (isSourceText_identifier hname.identifier) hsayable
  | literal hform hvalue => exact hliteral hform hvalue
  | binary _ _ ihleft ihright => exact hbinary (ihleft hsayable.1) (ihright hsayable.2)
  | @aggregate how withOwn =>
      exact hatom (isAtom_aggregate (isSource_inbox how withOwn))
        (isSourceText_called (isSourceText_word how) (isSourceText_inboxWord withOwn)) hsayable
  | @aggregateFrom how ids withOwn list hids =>
      have hlist := hids.isIdList fun id hid => (hsayable.2 id hid).2.1
      have hsource := isSourceText_called (isSourceText_sendersWord withOwn) hids.isSourceText
      exact hatom (isAtom_aggregate (isSource_senders how withOwn hlist))
        (isSourceText_called (isSourceText_word how) hsource) hsayable
  | other =>
      refine hatom .other ?_ hsayable
      show ∀ c ∈ "received_other".toList, isSourceChar c = true
      decide
  | @valueFrom id digits hid =>
      have hword : IsSourceText "value_from".toList := by
        show ∀ c ∈ "value_from".toList, isSourceChar c = true
        decide
      exact hatom (isAtom_valueFrom (hid.isId hsayable.2.1)) (isSourceText_called hword hid.source)
        hsayable

theorem blanks_space : Blanks [' '] := by
  intro c hc
  rw [List.mem_singleton.mp hc]
  decide

theorem trim_after_space (h : Trimmed text) : trim (' ' :: text) = text := by
  have hpadded := h.trim_eq blanks_space .nil
  rwa [List.append_nil] at hpadded

theorem readExpr_after_space {v : Vocabulary} (h : Trimmed text) :
    readExpr v (' ' :: text) = readExpr v text := by
  rw [← readExpr_trim, trim_after_space h]

/-- Two factors with an operator between them derive as a sum or a product. -/
theorem derives_operation {op : Operator} {l r : Expr Float} {left right : List Char}
    (hleft : Derives limit .factor left l) (hright : Derives limit .factor right r) :
    Derives limit .sum (left ++ [' '] ++ op.sign :: ([' '] ++ right)) (.binary op l r) := by
  have hsum : (op = .add ∨ op = .sub) → Derives limit .sum
      (left ++ [' '] ++ op.sign :: ([' '] ++ right)) (.binary op l r) :=
    fun hop => .sum hop (hleft.of_factor .sum) blanks_space blanks_space
      (hright.of_factor .product)
  have hproduct : (op = .mul ∨ op = .div) → Derives limit .product
      (left ++ [' '] ++ op.sign :: ([' '] ++ right)) (.binary op l r) :=
    fun hop => .product hop (hleft.of_factor .product) blanks_space blanks_space hright
  cases op with
  | add => exact hsum (.inl rfl)
  | sub => exact hsum (.inr rfl)
  | mul => exact (hproduct (.inl rfl)).toSum
  | div => exact (hproduct (.inr rfl)).toSum

theorem derives_enclosed (h : Derives limit .sum text e) :
    Derives limit .factor (enclosed text) e := by
  have henclosed := Derives.enclosed .nil h .nil
  rwa [List.nil_append, List.append_nil] at henclosed

/-- A written expression derives from the grammar as a factor. -/
theorem WritesExpr.derives (h : WritesExpr limit e text)
    (hsayable : Expr.Sayable processes names e) : Derives limit .factor text e := by
  refine WritesExpr.induct (motive := fun e text => Derives limit .factor text e) ?_ ?_ ?_ h
    hsayable
  · intro value text hform hvalue
    exact .numeral hform hvalue
  · intro e text hatom _ _
    exact .atom hatom
  · intro op l r left right hleft hright
    exact derives_enclosed (derives_operation hleft hright)

theorem WritesExpr.placed (h : WritesExpr limit e text)
    (hsayable : Expr.Sayable processes names e) : Placed .factor text :=
  (h.derives hsayable).placed

/-! ## Reading -/

/-- The vocabulary of the rules of a protocol with the state variable `x`. -/
def rulesVocabulary (processes : Nat) (names : List String) : Vocabulary :=
  { stateVar := "x", processes := some (processes : Int), declared := some names }

@[simp]
theorem rulesVocabulary_stateVar : (rulesVocabulary processes names).stateVar = "x" := rfl

/-- A known id is read where any id would be. -/
theorem readProcess_known {place : String}
    (h : ({} : Vocabulary).readProcess place text = .ok id) (hid : id ≤ processes) :
    (rulesVocabulary processes names).readProcess place text = .ok id := by
  obtain ⟨n, hread, hprocess⟩ := bind_eq_ok.mp h
  obtain ⟨hpositive, rfl⟩ := process_eq_ok_iff.mp hprocess
  have hrange : ¬ (n < 1 ∨ processes < n) := by omega
  rw [Vocabulary.readProcess, hread]
  simpa [bind, Except.bind, Vocabulary.process, rulesVocabulary] using hrange

theorem readSenders_known {place argument : String} {parts : List (List Char)}
    (h : readSenders {} place argument parts = .ok ids) (hids : ∀ id ∈ ids, id ≤ processes) :
    readSenders (rulesVocabulary processes names) place argument parts = .ok ids := by
  induction parts generalizing ids with
  | nil => exact h
  | cons part parts ih =>
      rw [readSenders_cons_eq_ok_iff] at h ⊢
      obtain ⟨hpart, id, rest, hid, hrest, rfl⟩ := h
      rw [List.forall_mem_cons] at hids
      exact ⟨hpart, id, rest, readProcess_known hid hids.1, ih hrest hids.2, rfl⟩

theorem readAggregate_known {how : Aggregation} (h : readAggregate {} how argument = .ok e)
    (hsayable : Expr.Sayable processes names e) :
    readAggregate (rulesVocabulary processes names) how argument = .ok e := by
  rw [readAggregate] at h ⊢
  split at h
  · next hinbox =>
    rw [if_pos hinbox]
    exact h
  · next hinbox =>
    rw [if_neg hinbox]
    split at h
    · next hall =>
      rw [if_pos hall]
      exact h
    · next hall =>
      rw [if_neg hall]
      split at h
      · next word list hlist =>
        obtain ⟨ids, hids, h⟩ := bind_eq_ok.mp h
        obtain rfl := pure_eq_ok.mp h
        have hread : readSenders (rulesVocabulary processes names) _ _ _ = .ok ids :=
          readSenders_known hids fun id hid => (hsayable.2 id hid).2.2
        simp only [hread, bind, Except.bind]
        rfl
      · cases h

/-- What is read without restrictions is read with those it keeps to. -/
theorem readOperand_known (h : readOperand {} text = .ok e)
    (hsayable : Expr.Sayable processes names e) :
    readOperand (rulesVocabulary processes names) text = .ok e := by
  simp only [readOperand] at h ⊢
  split at h
  · next word argument _ =>
    split at h
    · next how _ =>
      exact readAggregate_known h hsayable
    · cases h
  · split at h
    · next hvalue =>
      rw [if_pos hvalue]
      split at h
      · next argument _ =>
        split at h
        · next hnumber =>
          obtain ⟨id, hid, rfl⟩ := map_eq_ok.mp h
          rw [if_pos hnumber, readProcess_known hid hsayable.2.2]
          rfl
        · cases h
      · cases h
    · next hvalue =>
      rw [if_neg hvalue]
      split at h
      · exact h
      · exact h
      · split at h
        · next hown =>
          rw [if_pos (by exact hown)]
          exact h
        · next hown =>
          rw [if_neg (by exact hown)]
          split at h
          · cases h
          · next hidentifier =>
            rw [if_neg hidentifier]
            split at h
            · cases h
            · cases h
              simpa [rulesVocabulary] using hsayable.1

/-- Two factors with an operator between them are read when both are. -/
theorem readExpr_operation {v : Vocabulary} {op : Operator} {l r : Expr Float}
    {left right : List Char} (hleft : Placed .factor left) (hright : Placed .factor right)
    (hfront : Blanks front) (hback : Blanks back)
    (hplaced : Placed .sum (left ++ front ++ op.sign :: (back ++ right)))
    (hl : readExpr v left = .ok l) (hr : readExpr v right = .ok r) :
    readExpr v (left ++ front ++ op.sign :: (back ++ right)) = .ok (.binary op l r) := by
  apply readExpr_join hleft hfront hback hright hplaced _ hl hr
  have hcut : ∀ operators ∈ Level.factor.passed, op.sign ∈ operators →
      cutOperator? operators (left ++ front ++ op.sign :: (back ++ right)) =
        some (left ++ front, op.sign, back ++ right) :=
    fun operators hmem hop => cutOperator?_join operators op hop
      (passed_subset .factor operators hmem) hleft.complete hfront hback
      (hright.skips operators hmem)
  have htighter : (op = .mul ∨ op = .div) →
      cutOperator? ['+', '-'] (left ++ front ++ op.sign :: (back ++ right)) = none := by
    intro hop
    have hproduct : Placed .product left :=
      ⟨hleft.front, hleft.balanced, hleft.complete,
        fun operators hmem => hleft.skips operators (List.mem_append_left [['*', '/']] hmem)⟩
    exact (skips_product hop hproduct hfront hback hright .nil).eq_none
  rw [lastOperator?]
  cases op with
  | add =>
      rw [hcut ['+', '-'] (by decide) (by decide)]
      rfl
  | sub =>
      rw [hcut ['+', '-'] (by decide) (by decide)]
      rfl
  | mul =>
      rw [htighter (.inl rfl), hcut ['*', '/'] (by decide) (by decide)]
      rfl
  | div =>
      rw [htighter (.inr rfl), hcut ['*', '/'] (by decide) (by decide)]
      rfl

/-- A written expression that can be said is read as the expression. -/
theorem WritesExpr.readExpr (h : WritesExpr (some digitLimit) e text)
    (hsayable : Expr.Sayable processes names e) :
    readExpr (rulesVocabulary processes names) text = .ok e := by
  have hboth : Derives (some digitLimit) .factor text e ∧
      Source.readExpr (rulesVocabulary processes names) text = .ok e := by
    refine WritesExpr.induct (motive := fun e text => Derives (some digitLimit) .factor text e ∧
      Source.readExpr (rulesVocabulary processes names) text = .ok e) ?_ ?_ ?_ h hsayable
    · intro value text hform hvalue
      exact ⟨.numeral hform hvalue, readExpr_numeral hform hvalue⟩
    · intro e text hatom htext hsayable
      have hread := readOperand_known (readOperand_of_isAtom htext hatom) hsayable
      exact ⟨.atom hatom, by rw [readExpr_of_isAtom hatom, hread]⟩
    · rintro op l r left right ⟨hleft, hl⟩ ⟨hright, hr⟩
      have hbody : Derives _ _ _ (.binary op l r) := derives_operation hleft hright
      refine ⟨derives_enclosed hbody, ?_⟩
      rw [enclosed, readExpr_round hbody.placed.balanced]
      exact readExpr_operation hleft.placed hright.placed blanks_space blanks_space hbody.placed
        hl hr
  exact hboth.2

end LossyConsensus.Source
