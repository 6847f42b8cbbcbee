/-
# Where conversions fail

Three things stand where the grammar allows them and yet cannot be converted:
the name of an aggregation that is spelt with a letter of another script, a
number with more digits than an integer may have, and a list entry of several
numbers with blanks between them.  A reader of rules that fails for a conversion
has found one of them in its text.
-/

import LossyConsensus.Proofs.Source.Fragment
import LossyConsensus.Proofs.Text.Part
import LossyConsensus.Source.Sections

namespace LossyConsensus.Source

open LossyConsensus.Decimal LossyConsensus.Protocol LossyConsensus.Text

variable {α β : Type} {v : Vocabulary} {text part piece : List Char} {fault : ConversionFault}

/-- What a text holds where a conversion fails. -/
inductive ConversionFault.ArisesIn (text : List Char) : ConversionFault → Prop
  | aggregation {how : Aggregation} {word : List Char} (hword : word <:+: text)
      (hcase : List.Forall₂ (fun small c => isCaseOf small c = true) how.word.toList word)
      (hother : ∀ other : Aggregation, String.ofList (lower word) ≠ other.word) :
      ArisesIn text (.aggregation (String.ofList (lower word)))
  | tooLong {digits : List Char} (hdigits : digits <:+: text) (hnumber : isNumber digits = true)
      (hlong : digitLimit < digits.length) : ArisesIn text (.integer (.tooLong digits.length))
  | malformed {entry : List Char} (hentry : entry <:+: text)
      (hform : ∀ c ∈ entry, isDigit c = true ∨ isBlank c = true)
      (hsome : ∃ c ∈ entry, isDigit c = true) (hnumber : isNumber (trimNumeral entry) = false) :
      ArisesIn text (.integer (.malformed (String.ofList entry)))

theorem ConversionFault.ArisesIn.mono (h : fault.ArisesIn piece) (hpiece : piece <:+: text) :
    fault.ArisesIn text := by
  cases h with
  | aggregation hword hcase hother => exact .aggregation (hword.trans hpiece) hcase hother
  | tooLong hdigits hnumber hlong => exact .tooLong (hdigits.trans hpiece) hnumber hlong
  | malformed hentry hform hsome hnumber =>
      exact .malformed (hentry.trans hpiece) hform hsome hnumber

/-! ## Small letters keep numbers -/

/-- The runs of small letters beyond ASCII hold none of the runs of digits. -/
theorem shifted_digitZeros : ∀ run ∈ capitalRuns, 57 < run.first + run.shift ∧
    ∀ first ∈ digitZeros, run.last + run.shift < first ∨ first + 10 ≤ run.first + run.shift := by
  decide +kernel

/-- The code points of digits. -/
theorem toNat_of_isDigit {c : Char} (hc : isDigit c = true) : 0 < c.toNat ∧
    (c.toNat ≤ 57 ∨ ∃ first ∈ digitZeros, first ≤ c.toNat ∧ c.toNat < first + 10) := by
  by_cases hascii : c.toNat < 128
  · rw [isDigit, digitValue?, if_pos hascii] at hc
    split at hc
    · next hrange =>
      simp only [Bool.and_eq_true, decide_eq_true_eq] at hrange
      exact ⟨by omega, .inl hrange.2⟩
    · cases hc
  · exact ⟨by omega, .inr (exists_of_isDigit hc hascii)⟩

theorem toNat_ofNat_of_pos {point : Nat} (h : 0 < (Char.ofNat point).toNat) :
    (Char.ofNat point).toNat = point := by
  by_cases hvalid : point.isValidChar
  · have hchar : Char.ofNat point = Char.ofNatAux point hvalid := dif_pos hvalid
    rw [hchar]
    rfl
  · have hchar : Char.ofNat point = ⟨0, by decide⟩ := dif_neg hvalid
    rw [hchar] at h
    exact absurd h (Nat.lt_irrefl 0)

/-- The small form of what is no digit holds no digit. -/
theorem isDigit_lowerChar {c : Char} (hc : isDigit c = false) :
    ∀ d ∈ lowerChar c, isDigit d = false := by
  intro d hd
  simp only [lowerChar] at hd
  split at hd
  · next hascii =>
    have hsmall := forall_ascii (fun c => isDigit c || !isDigit c.toLower) (by decide) hascii
    rw [List.mem_singleton.mp hd]
    simpa [hc] using hsmall
  · split at hd
    · have hdotted : ∀ d ∈ ['i', Char.ofNat 0x307], isDigit d = false := by decide
      exact hdotted d hd
    · split at hd
      · next run hrun =>
        have hmem := List.mem_of_find?_eq_some hrun
        have hrange := List.find?_some hrun
        simp only [Bool.and_eq_true, decide_eq_true_eq] at hrange
        obtain ⟨hplain, hapart⟩ := shifted_digitZeros run hmem
        rw [List.mem_singleton.mp hd, Bool.eq_false_iff]
        intro hdigit
        obtain ⟨hpositive, hsmall | ⟨first, hfirst, hwithin⟩⟩ := toNat_of_isDigit hdigit
        · have hpoint := toNat_ofNat_of_pos hpositive
          omega
        · have hpoint := toNat_ofNat_of_pos hpositive
          have hoff := hapart first hfirst
          omega
      · rw [List.mem_singleton.mp hd]
        exact hc

theorem lowerChar_ne_nil (c : Char) : lowerChar c ≠ [] := by
  simp only [lowerChar]
  split
  · exact List.cons_ne_nil _ _
  · split
    · exact List.cons_ne_nil _ _
    · split
      · exact List.cons_ne_nil _ _
      · exact List.cons_ne_nil _ _

theorem respelled_lower (text : List Char) : Respelled text (lower text) := by
  have hfrom : ∀ before, Respelled text (lowerFrom before text) := by
    induction text with
    | nil => exact fun before => .nil
    | cons c text ih =>
        intro before
        cases hc : isDigit c with
        | true =>
            rw [lowerFrom_digit hc, toLower_eq_self (isUpper_of_isAlpha (isAlpha_of_isDigit hc))]
            exact .digit hc (ih _)
        | false =>
            rw [lowerFrom]
            refine .other ?_ ?_ (ih _)
            · split
              · split <;> decide
              · exact isDigit_lowerChar hc
            · intro hnil
              exfalso
              split at hnil
              · split at hnil <;> cases hnil
              · exact lowerChar_ne_nil c hnil
  exact hfrom []

/-- Every number in the text as it is shown stands in the text. -/
def KeepsNumbers (text shown : List Char) : Prop :=
  ∀ digits, isNumber digits = true → digits <:+: shown → digits <:+: text

theorem keepsNumbers_of_isInfix (h : part <:+: text) : KeepsNumbers text part :=
  fun _ _ hdigits => hdigits.trans h

theorem keepsNumbers_lower (text : List Char) : KeepsNumbers text (lower text) :=
  fun _ hnumber hdigits => (respelled_lower text).isInfix hnumber hdigits

theorem keepsNumbers_squeeze (text : List Char) : KeepsNumbers text (squeeze text) :=
  fun _ hnumber hdigits => (respelled_squeeze text).isInfix hnumber hdigits

theorem KeepsNumbers.trans {shown shown' : List Char} (h : KeepsNumbers text shown)
    (h' : KeepsNumbers shown shown') : KeepsNumbers text shown' :=
  fun digits hnumber hdigits => h digits hnumber (h' digits hnumber hdigits)

/-! ## Numbers -/

theorem trimNumeral_isInfix (text : List Char) : trimNumeral text <:+: text := by
  have hdrop := List.dropWhile_suffix (l := text) isNumeralBlank
  have hreverse := List.dropWhile_suffix (l := (text.dropWhile isNumeralBlank).reverse)
    isNumeralBlank
  rw [← List.reverse_prefix, List.reverse_reverse] at hreverse
  exact hreverse.isInfix.trans hdrop.isInfix

/-- Why a text gives no number: it has too many digits, or it is none. -/
theorem readNumber_eq_error (h : readNumber text = .error fault) :
    (∃ digits, digits <:+: text ∧ isNumber digits = true ∧ digitLimit < digits.length ∧
      fault = .integer (.tooLong digits.length)) ∨
    (isNumber (trimNumeral text) = false ∧ fault = .integer (.malformed (String.ofList text))) := by
  obtain ⟨error, hread, rfl⟩ := mapError_eq_error.mp h
  simp only [readInteger] at hread
  split at hread
  · next hlong =>
    cases hread
    refine .inl ⟨(trimNumeral text).takeWhile isDigit, ?_, ?_, hlong, rfl⟩
    · exact (List.takeWhile_prefix _).isInfix.trans (trimNumeral_isInfix text)
    · rw [isNumber, List.all_takeWhile, Bool.and_true, Bool.not_eq_true',
        List.isEmpty_eq_false_iff, ← List.length_pos_iff]
      omega
  · split at hread
    · cases hread
    · next hnumber =>
      cases hread
      exact .inr ⟨by simpa using hnumber, rfl⟩

/-- A number fails only if it is too long. -/
theorem arisesIn_of_readNumber {digits : List Char} (hnumber : isNumber digits = true)
    (hkeeps : KeepsNumbers text digits) (h : readNumber digits = .error fault) :
    fault.ArisesIn text := by
  rcases readNumber_eq_error h with ⟨run, hrun, hrunNumber, hlong, rfl⟩ | ⟨hnone, _⟩
  · exact .tooLong (hkeeps run hrunNumber hrun) hrunNumber hlong
  · rw [trimNumeral_eq (trimmed_of_isNumber hnumber), hnumber] at hnone
    cases hnone

/-- A list entry fails if it is too long or holds more than one number. -/
theorem arisesIn_of_readNumber_entry (hform : ∀ c ∈ part, isDigit c = true ∨ isBlank c = true)
    (hsome : trim part ≠ []) (h : readNumber part = .error fault) : fault.ArisesIn part := by
  rcases readNumber_eq_error h with ⟨run, hrun, hnumber, hlong, rfl⟩ | ⟨hnone, rfl⟩
  · exact .tooLong hrun hnumber hlong
  · obtain ⟨c, rest, hfront, hblank⟩ := (trimmed_trim hsome).front
    have hmem : c ∈ part := mem_of_mem_trim (by rw [hfront]; exact List.mem_cons_self)
    have hdigit : isDigit c = true := (hform c hmem).resolve_right (by simp [hblank])
    exact .malformed List.infix_rfl hform ⟨c, hmem, hdigit⟩ hnone

/-- A number at the end of a line stands there between blanks. -/
theorem exists_of_digitsAtEnd? {digits : List Char} (h : digitsAtEnd? text = some digits) :
    isNumber digits = true ∧ ∃ before after, Blanks before ∧ Blanks after ∧
      text = before ++ digits ++ after := by
  obtain ⟨⟨found, rest⟩, hnumber, h⟩ := Option.bind_eq_some_iff.mp h
  dsimp only at h
  split at h
  · next hends =>
    cases h
    obtain ⟨hdigits, hparts⟩ := eq_of_number? hnumber
    obtain ⟨before, hbefore, hfront⟩ := exists_trimLeft text
    obtain ⟨after, hafter, hback⟩ := exists_trimLeft rest
    rw [List.isEmpty_iff.mp hends, List.append_nil] at hback
    refine ⟨hdigits, before, after, hbefore, hafter, ?_⟩
    rw [hfront, hparts, hback, List.append_assoc]
  · cases h

/-! ## Readers of rules -/

/-- A computation fails for a conversion only with what a text holds. -/
def ConvertsWithin (text : List Char) (computation : Except RuleError α) : Prop :=
  ∀ fault, computation = .error (.unconvertible fault) → fault.ArisesIn text

namespace ConvertsWithin

variable {computation : Except RuleError α}

theorem ok (text : List Char) (value : α) : ConvertsWithin text (.ok value) := by
  intro fault h
  cases h

theorem refused (text : List Char) (why : RuleFault) :
    ConvertsWithin text (.error (.refused why) : Except RuleError α) := by
  intro fault h
  cases h

theorem mono (h : ConvertsWithin piece computation) (hpiece : piece <:+: text) :
    ConvertsWithin text computation :=
  fun fault hfault => (h fault hfault).mono hpiece

theorem bind {next : α → Except RuleError β} (hfirst : ConvertsWithin text computation)
    (hnext : ∀ value, ConvertsWithin text (next value)) :
    ConvertsWithin text (computation >>= next) := by
  intro fault h
  rcases bind_eq_error.mp h with h | ⟨value, _, h⟩
  · exact hfirst fault h
  · exact hnext value fault h

theorem map {change : α → β} (h : ConvertsWithin text computation) :
    ConvertsWithin text (computation.map change) :=
  fun fault hfault => h fault (map_eq_error.mp hfault)

theorem ofNumber {reading : Except ConversionFault α}
    (h : ∀ fault, reading = .error fault → fault.ArisesIn text) :
    ConvertsWithin text (reading.mapError RuleError.unconvertible) := by
  intro fault hfault
  obtain ⟨found, hfound, heq⟩ := mapError_eq_error.mp hfault
  cases heq
  exact h _ hfound

end ConvertsWithin

theorem convertsWithin_process (text : List Char) (place : String) (id : Nat) :
    ConvertsWithin text (v.process place id) := by
  rw [Vocabulary.process]
  split
  · exact .refused _ _
  · exact .ok _ _

theorem convertsWithin_readProcess {place : String}
    (h : ∀ fault, readNumber part = .error fault → fault.ArisesIn text) :
    ConvertsWithin text (v.readProcess place part) :=
  .bind (.ofNumber h) fun id => convertsWithin_process text place id

theorem convertsWithin_readSenders {place argument : String} {parts : List (List Char)}
    (h : ∀ part ∈ parts, part <:+: text ∧ ∀ c ∈ part, isDigit c = true ∨ isBlank c = true) :
    ConvertsWithin text (readSenders v place argument parts) := by
  induction parts with
  | nil => exact .ok _ _
  | cons part parts ih =>
      rw [List.forall_mem_cons] at h
      obtain ⟨⟨hpart, hform⟩, hrest⟩ := h
      rw [readSenders]
      split
      · exact .refused _ _
      · next hsome =>
        refine .bind ?_ fun id => .bind (ih hrest) fun ids => .ok _ _
        refine convertsWithin_readProcess fun fault hfault => ?_
        exact (arisesIn_of_readNumber_entry hform (by simpa using hsome) hfault).mono hpart

/-- A call's word as written, and what its parentheses hold, stand in its
text. -/
theorem parts_of_call? {word : String} {written argument : List Char}
    (h : call? word text = some (written, argument)) :
    List.Forall₂ (fun small c => isCaseOf small c = true) word.toList written ∧
      written <:+: text ∧ argument <:+: text := by
  obtain ⟨rest, hword, h⟩ := Option.bind_eq_some_iff.mp h
  obtain ⟨found, hround, h⟩ := Option.bind_eq_some_iff.mp h
  cases h
  obtain ⟨written, hparts, hcase⟩ := parts_of_afterAnyCase? hword
  have hlength : word.length = written.length := by
    rw [← hcase.length_eq, String.length_toList]
  have hwritten : text.take word.length = written := by
    rw [hparts, hlength, List.take_left]
  refine ⟨hwritten ▸ hcase, (List.take_prefix _ _).isInfix, ?_⟩
  refine (isInfix_of_parenthesised? hround).trans ?_
  exact ((trimLeft_isSuffix rest).trans (isSuffix_of_afterAnyCase? hword)).isInfix

theorem entries_of_senderList? {argument word list : List Char}
    (h : senderList? argument = some (word, list)) :
    ∀ part ∈ splitOn ',' list, part <:+: argument ∧
      ∀ c ∈ part, isDigit c = true ∨ isBlank c = true := by
  rw [senderList?, Option.filter_eq_some_iff, Option.orElse_eq_orElse, Option.orElse_eq_or,
    Option.or_eq_some_iff] at h
  obtain ⟨hcall, hlist⟩ := h
  have hargument : list <:+: argument := by
    rcases hcall with hcall | ⟨_, hcall⟩
    · exact (parts_of_call? hcall).2.2
    · exact (parts_of_call? hcall).2.2
  rw [isSenderList, Bool.and_eq_true, List.all_eq_true] at hlist
  intro part hpart
  have hwithin := isInfix_of_mem_splitOn hpart
  refine ⟨hwithin.trans hargument, fun c hc => ?_⟩
  have hchar := hlist.2 c (hwithin.subset hc)
  have hcomma : c ≠ ',' := fun heq => not_mem_of_mem_splitOn hpart (heq ▸ hc)
  simpa [hcomma] using hchar

theorem convertsWithin_readAggregate {how : Aggregation} (argument : List Char) :
    ConvertsWithin argument (readAggregate v how argument) := by
  rw [readAggregate]
  split
  · exact .ok _ _
  · split
    · exact .ok _ _
    · split
      · next hlist =>
        exact .bind (convertsWithin_readSenders (entries_of_senderList? hlist))
          fun senders => .ok _ _
      · exact .refused _ _

theorem parts_of_aggregateCall? {word argument : List Char}
    (h : aggregateCall? text = some (word, argument)) :
    ∃ how : Aggregation, List.Forall₂ (fun small c => isCaseOf small c = true) how.word.toList word ∧
      word <:+: text ∧ argument <:+: text := by
  obtain ⟨⟨name, how⟩, hmem, hcall⟩ :=
    List.exists_of_findSome?_eq_some (Option.eq_some_of_filter_eq_some h)
  obtain ⟨other, _, heq⟩ := List.mem_map.mp hmem
  cases heq
  exact ⟨how, parts_of_call? hcall⟩

theorem word_ne_of_lookup {name : String} (h : aggregations.lookup name = none)
    (how : Aggregation) : name ≠ how.word := by
  rintro rfl
  cases how <;> exact absurd h (by decide)

theorem convertsWithin_readOperand (text : List Char) :
    ConvertsWithin text (readOperand v text) := by
  simp only [readOperand]
  split
  · next word argument hcall =>
    obtain ⟨how, hcase, hword, hargument⟩ := parts_of_aggregateCall? hcall
    split
    · exact (convertsWithin_readAggregate _).mono ((trim_isInfix _).trans hargument)
    · next hlookup =>
      intro fault hfault
      cases hfault
      exact .aggregation hword hcase (word_ne_of_lookup hlookup)
  · split
    · split
      · next argument hargument =>
        split
        · next hnumber =>
          obtain ⟨⟨_, found⟩, hcall, rfl⟩ := Option.map_eq_some_iff.mp hargument
          have hshown := (trim_isInfix found).trans (parts_of_call? hcall).2.2
          have hkeeps := (keepsNumbers_lower text).trans (keepsNumbers_of_isInfix hshown)
          exact .map (convertsWithin_readProcess fun fault =>
            arisesIn_of_readNumber hnumber hkeeps)
        · exact .refused _ _
      · exact .refused _ _
    · split
      · exact .ok _ _
      · split
        · exact .ok _ _
        · exact .refused _ _
      · split
        · exact .ok _ _
        · split
          · exact .refused _ _
          · split
            · exact .refused _ _
            · exact .ok _ _

theorem parts_of_lastOperator? {left right : List Char} {c : Char}
    (h : lastOperator? text = some (left, c, right)) : left <:+: text ∧ right <:+: text := by
  rw [lastOperator?_parts h]
  exact ⟨(List.prefix_append _ _).isInfix,
    (List.suffix_append_of_suffix (List.suffix_cons _ _)).isInfix⟩

theorem convertsWithin_readExpr (source : List Char) :
    ConvertsWithin source (readExpr v source) := by
  fun_induction readExpr v source with
  | case1 source text hempty => exact .refused _ _
  | case2 source text hsome numeral hnumeral => exact .ok _ _
  | case3 source text hsome hnone henclosed ih =>
      exact ih.mono ((stripEnclosing_isInfix _).trans (trim_isInfix _))
  | case4 => exact .refused _ _
  | case5 source text hsome hnone hopen left c right hcut hoperands ihleft ihright =>
      obtain ⟨hleft, hright⟩ := parts_of_lastOperator? hcut
      exact .bind (ihleft.mono (hleft.trans (trim_isInfix _))) fun leftExpr =>
        .bind (ihright.mono (hright.trans (trim_isInfix _))) fun rightExpr => .ok _ _
  | case6 source text hsome hnone hopen hcut hsign ih =>
      exact .bind (ih.mono ((List.drop_suffix 1 _).isInfix.trans (trim_isInfix _)))
        fun operand => .ok _ _
  | case7 source text hsome hnone hopen hcut hsign =>
      exact (convertsWithin_readOperand _).mono (trim_isInfix _)

theorem isNumber_of_numberArgument? {word : String} {digits : List Char}
    (h : numberArgument? word text = some digits) : isNumber digits = true ∧ digits <:+: text := by
  rw [numberArgument?, Option.filter_eq_some_iff, Option.join_eq_some_iff] at h
  obtain ⟨hargument, hnumber⟩ := h
  refine ⟨hnumber, ?_⟩
  obtain ⟨rest, hword, hargument⟩ := Option.bind_eq_some_iff.mp hargument
  dsimp only at hargument
  split at hargument
  · cases hargument
  · obtain ⟨found, hround, hargument⟩ := Option.bind_eq_some_iff.mp hargument
    cases hargument
    refine (trim_isInfix found).trans ((isInfix_of_parenthesised? hround).trans ?_)
    exact ((trimLeft_isSuffix rest).trans (isSuffix_of_after? hword)).isInfix

theorem convertsWithin_readAtom (text : List Char) : ConvertsWithin text (readAtom v text) := by
  have hnumber {word : String} {digits : List Char}
      (h : numberArgument? word (squeeze (lower text)) = some digits) (fault : ConversionFault) :
      readNumber digits = .error fault → fault.ArisesIn text := by
    obtain ⟨hdigits, hshown⟩ := isNumber_of_numberArgument? h
    exact arisesIn_of_readNumber hdigits (((keepsNumbers_lower text).trans
      (keepsNumbers_squeeze _)).trans (keepsNumbers_of_isInfix hshown))
  simp only [readAtom]
  split
  · exact .ok _ _
  · split
    · exact .ok _ _
    · split
      · exact .ok _ _
      · split
        · exact .ok _ _
        · split
          · split
            · exact .ok _ _
            · exact .refused _ _
          · split
            · split
              · next digits hdigits =>
                exact .bind (.ofNumber (hnumber hdigits)) fun count => .ok _ _
              · exact .refused _ _
            · split
              · split
                · next digits hdigits =>
                  exact .map (convertsWithin_readProcess (hnumber hdigits))
                · exact .refused _ _
              · exact .refused _ _

theorem convertsWithin_readPredicate (source : List Char) :
    ConvertsWithin source (readPredicate v source) := by
  fun_induction readPredicate v source with
  | case1 source text hempty => exact .refused _ _
  | case2 source text hsome henclosed ih =>
      exact ih.mono ((stripEnclosing_isInfix _).trans (trim_isInfix _))
  | case3 source text hsome hopen left right hcut ihleft ihright =>
      obtain ⟨hleft, hright⟩ := isInfix_of_cutOutsideFrom hcut
      exact .bind (ihleft.mono (hleft.trans (trim_isInfix _))) fun leftPart =>
        .bind (ihright.mono (hright.trans (trim_isInfix _))) fun rightPart => .ok _ _
  | case4 source text hsome hopen hnone left right hcut ihleft ihright =>
      obtain ⟨hleft, hright⟩ := isInfix_of_cutOutsideFrom hcut
      exact .bind (ihleft.mono (hleft.trans (trim_isInfix _))) fun leftPart =>
        .bind (ihright.mono (hright.trans (trim_isInfix _))) fun rightPart => .ok _ _
  | case5 source text hsome hopen hor hand rest hrest ih =>
      have hnegated : rest <:+: text := by
        rw [negated?] at hrest
        split at hrest
        · cases hrest
          exact (List.drop_suffix 3 _).isInfix
        · cases hrest
      exact .bind (ih.mono (hnegated.trans (trim_isInfix _))) fun operand => .ok _ _
  | case6 source text hsome hopen hor hand hnot left relation right hcut =>
      obtain ⟨⟨sign, other⟩, _, hfound⟩ := List.exists_of_findSome?_eq_some hcut
      obtain ⟨⟨front, back⟩, hcutSign, heq⟩ := Option.map_eq_some_iff.mp hfound
      cases heq
      obtain ⟨hleft, hright⟩ := isInfix_of_cutOutsideFrom hcutSign
      exact .bind ((convertsWithin_readExpr _).mono (hleft.trans (trim_isInfix _))) fun leftExpr =>
        .bind ((convertsWithin_readExpr _).mono (hright.trans (trim_isInfix _)))
          fun rightExpr => .ok _ _
  | case7 => exact (convertsWithin_readAtom _).mono (trim_isInfix _)

/-! ## Conditionals -/

theorem isSuffix_of_afterThen? {body : List Char} (h : afterThen? text = some body) :
    body <:+ text := by
  obtain ⟨start, hstart, h⟩ := Option.bind_eq_some_iff.mp h
  obtain ⟨rest, hrest, h⟩ := Option.bind_eq_some_iff.mp h
  dsimp only at h
  split at h
  · cases h
    exact (trimLeft_isSuffix rest).trans
      ((isSuffix_of_afterAnyCase? hrest).trans (isSuffix_of_blanks? hstart))
  · cases h

/-- A condition ends at the first `then` that does not stand at its front, and before the
line does. -/
theorem conditionFrom_cons_eq_some_iff {c : Char} {rest seen condition body : List Char} :
    conditionFrom seen (c :: rest) = some (condition, body) ↔
      (seen ≠ [] ∧ afterThen? (c :: rest) = some body ∧ seen.reverse = condition) ∨
        (seen = [] ∨ afterThen? (c :: rest) = none) ∧ c ≠ '\n' ∧
          conditionFrom (c :: seen) rest = some (condition, body) := by
  rw [conditionFrom]
  cases seen with
  | nil => simp
  | cons d seen =>
      simp only [List.isEmpty_cons, Bool.false_eq_true, if_false]
      cases afterThen? (c :: rest) with
      | none => simp
      | some found => simp [and_comm]

/-- The condition stands before its `then`, and the body after it. -/
theorem parts_of_conditionFrom {seen condition body : List Char}
    (h : conditionFrom seen text = some (condition, body)) :
    condition <+: seen.reverse ++ text ∧ body <:+ text := by
  induction text generalizing seen with
  | nil => cases h
  | cons c rest ih =>
      rcases conditionFrom_cons_eq_some_iff.mp h with ⟨_, hthen, rfl⟩ | ⟨_, _, h⟩
      · exact ⟨List.prefix_append _ _, isSuffix_of_afterThen? hthen⟩
      · obtain ⟨hcondition, hbody⟩ := ih h
        rw [List.reverse_cons, List.append_assoc] at hcondition
        exact ⟨hcondition, hbody.trans (List.suffix_cons c rest)⟩

theorem parts_of_ifThen? {condition body : List Char} (h : ifThen? text = some (condition, body)) :
    condition <:+: text ∧ body <:+: text := by
  obtain ⟨rest, hrest, h⟩ := Option.bind_eq_some_iff.mp h
  obtain ⟨kept, _, hkept⟩ := List.exists_of_findSome?_eq_some h
  obtain ⟨hcondition, hbody⟩ := parts_of_conditionFrom hkept
  have hdrop := (List.drop_suffix ((rest.takeWhile isBlank).length - kept) rest).trans
    (isSuffix_of_afterAnyCase? hrest)
  exact ⟨hcondition.isInfix.trans hdrop.isInfix, hbody.isInfix.trans hdrop.isInfix⟩

theorem dropEnd_isPrefix (text : List Char) : dropEnd text <+: text := by
  rw [dropEnd]
  split
  · next before hbefore =>
    split
    · have hsuffix := (trimLeft_isSuffix before).trans (isSuffix_of_after? hbefore)
      rwa [← List.reverse_prefix, List.reverse_reverse] at hsuffix
    · exact List.prefix_rfl
  · exact List.prefix_rfl

theorem conditionalBody_isInfix (text : List Char) : conditionalBody text <:+: text :=
  (dropEnd_isPrefix _).isInfix.trans (trim_isInfix text)

/-! ## Rules -/

theorem convertsWithin_readTarget (text part : List Char) :
    ConvertsWithin text (readTarget v part) := by
  simp only [readTarget]
  split
  · split
    · exact .ok _ _
    · exact .refused _ _
  · split
    · exact .ok _ _
    · split
      · split
        · exact .ok _ _
        · exact .refused _ _
      · exact .refused _ _

theorem isInfix_of_differentArguments? {arguments : List (List Char)}
    (h : differentArguments? text = some arguments) : ∀ part ∈ arguments, part <:+: text := by
  obtain ⟨⟨_, argument⟩, hcall, rfl⟩ := Option.map_eq_some_iff.mp h
  have hargument := (parts_of_call? (Option.eq_some_of_filter_eq_some hcall)).2.2
  exact fun part hpart => (isInfix_of_mem_splitOutside hpart).trans hargument

theorem convertsWithin_readSimpleRule (text : List Char) :
    ConvertsWithin text (readSimpleRule v text) := by
  rw [readSimpleRule]
  split
  · next arguments harguments =>
    split
    · next different same =>
      have hparts := isInfix_of_differentArguments? harguments
      split
      · exact .refused _ _
      · exact .bind ((convertsWithin_readExpr _).mono (hparts _ (by simp))) fun differentExpr =>
          .bind ((convertsWithin_readExpr _).mono (hparts _ (by simp))) fun sameExpr => .ok _ _
    · exact .refused _ _
  · split
    · next left right hassignment =>
      have hright : right <:+: text := by
        rw [assignment?, Option.orElse_eq_orElse, Option.orElse_eq_or,
          Option.or_eq_some_iff] at hassignment
        rcases hassignment with hcut | ⟨_, hcut⟩
        · exact (isInfix_of_cut? hcut).2
        · exact (isInfix_of_cut? hcut).2
      exact .bind (convertsWithin_readTarget _ _) fun target =>
        .bind ((convertsWithin_readExpr _).mono hright) fun value => .ok _ _
    · split
      · exact .ok _ _
      · split
        · exact .ok _ _
        · exact .refused _ _
        · next error _ herror =>
          intro fault hfault
          cases hfault
          exact convertsWithin_readExpr text fault herror

/-- A rule fails for a conversion only with what its text holds. -/
theorem convertsWithin_readRule (source : List Char) :
    ConvertsWithin source (readRule v source) := by
  fun_induction readRule v source with
  | case1 source text hempty => exact .refused _ _
  | case2 source text hsome hnone =>
      exact (convertsWithin_readSimpleRule _).mono (trim_isInfix _)
  | case3 source text hsome condition rest hif ihbody ihleft ihright =>
      obtain ⟨hcondition, hrest⟩ := parts_of_ifThen? hif
      have hbody := ((conditionalBody_isInfix rest).trans hrest).trans (trim_isInfix source)
      refine .bind ((convertsWithin_readPredicate _).mono
        (hcondition.trans (trim_isInfix source))) fun predicate => ?_
      dsimp only
      split
      · exact .refused _ _
      · split
        · exact .bind (ihbody.mono hbody) fun rule => .ok _ _
        · next left right hcut =>
          obtain ⟨hleft, hright⟩ := isInfix_of_cutOutsideFrom hcut
          exact .bind ((ihleft left right hcut).mono (hleft.trans hbody)) fun yes =>
            .bind ((ihright left right hcut).mono (hright.trans hbody)) fun no => .ok _ _

end LossyConsensus.Source
