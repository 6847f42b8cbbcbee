/-
# Delivery models in source texts

The word of a kind begins the text of a delivery model.  Its options are looked for
anywhere in the text, each at the first place where the name is given a value, and the
rest of the text is passed over.  So a text of the grammar is read as it is written; and
so are texts beyond it, in which an option that is misspelt counts for nothing.
-/

import LossyConsensus.Proofs.Except
import LossyConsensus.Proofs.Source.ModelOption
import LossyConsensus.Proofs.Source.Sender
import Mathlib.Data.List.Permutation

namespace LossyConsensus.Source

open LossyConsensus.Decimal LossyConsensus.Protocol LossyConsensus.Text

/-! ## What a text of a model says -/

/-- What is read from a text in small letters: the word in front decides the kind, an
option is what the text first gives it, and nothing more of the text counts. -/
inductive ReadsModel (text : List Char) : ModelKind → ModelOptions → Prop
  | standard (hword : text = ModelKind.standard.word.toList) : ReadsModel text .standard {}
  | guaranteed {digits : List Char} {scope : String}
      (hword : ModelKind.guaranteed.word.toList <+: text)
      (hcount : OptionForm.count.GivesFirst none digits text)
      (hshort : digits.length ≤ digitLimit)
      (hscope : OptionForm.Chooses "scope" "per_round" scope text)
      (hknown : scope = "per_round" ∨ scope = "total") :
      ReadsModel text .guaranteed
        { minMessages := some (digitsValue digits : Nat), scope := some scope }
  | broadcast {probability : String} (hword : ModelKind.broadcast.word.toList <+: text)
      (hprobability : OptionForm.Chooses "probability" "per_source" probability text)
      (hknown : probability = "per_source" ∨ probability = "uniform") :
      ReadsModel text .broadcast { probability := some probability }

/-- An option that may be left out, with its name. -/
def leftOrWritten (name : String) (choice : Option String) : List (String × List Char) :=
  choice.toList.map fun word => (name, word.toList)

/-- The grammar of delivery models in small letters.  A count has at most as many digits
as the limit says, if there is one; the options stand in any order. -/
inductive IsModel (limit : Option Nat) : List Char → ModelKind → ModelOptions → Prop
  | standard : IsModel limit ModelKind.standard.word.toList .standard {}
  | guaranteed {digits options : List Char} {scope : Option String}
      {written : List (String × List Char)} (hnumber : isNumber digits = true)
      (hshort : ∀ most ∈ limit, digits.length ≤ most)
      (hscope : ∀ word ∈ scope, word = "per_round" ∨ word = "total")
      (hwritten : written.Perm (("k", digits) :: leftOrWritten "scope" scope))
      (hoptions : IsOptions written options) :
      IsModel limit (ModelKind.guaranteed.word.toList ++ options) .guaranteed
        { minMessages := some (digitsValue digits : Nat), scope := some (scope.getD "per_round") }
  | broadcast {options : List Char} {probability : Option String}
      (hprobability : ∀ word ∈ probability, word = "per_source" ∨ word = "uniform")
      (hoptions : IsOptions (leftOrWritten "probability" probability) options) :
      IsModel limit (ModelKind.broadcast.word.toList ++ options) .broadcast
        { probability := some (probability.getD "per_source") }

/-! ## The reader of models -/

section

variable {process : Option Int} {number : Nat} {text : List Char} {spec : ModelSpec}

theorem find?_count (text : List Char) :
    findOption? "k" (fun previous => !previous.any isWordChar)
      (fun rest => (number? rest).map (·.1)) none text = OptionForm.count.find? none text := by
  have hvalue : (fun rest => (number? rest).map (·.1)) = OptionForm.count.value? := by
    funext rest
    exact apply_ite (Option.map Prod.fst) _ none _
  rw [hvalue]
  rfl

theorem wordOption_eq_iff {name default value : String} :
    wordOption name default text = value ↔ OptionForm.Chooses name default value text := by
  have hread : wordOption name default text =
      (((OptionForm.worded name).find? none text).map String.ofList).getD default := rfl
  rw [hread, OptionForm.Chooses, ← OptionForm.find?_eq_none_iff]
  simp only [← OptionForm.find?_eq_some_iff]
  cases (OptionForm.worded name).find? none text with
  | none => simp [eq_comm]
  | some found => simp [eq_comm]

/-- A run of digits is a number unless it is too long. -/
theorem readNumber_of_isNumber {digits : List Char} (h : isNumber digits = true) :
    readNumber digits = if digitLimit < digits.length then
      .error (.integer (.tooLong digits.length)) else .ok (digitsValue digits) := by
  have hrun : digits.takeWhile isDigit = digits :=
    List.takeWhile_eq_self_iff.mpr (digits_iff.mp h).2
  simp only [readNumber, readInteger, trimNumeral_eq (trimmed_of_isNumber h), hrun, h]
  split <;> rfl

theorem OptionForm.GivesFirst.isNumber {digits : List Char}
    (h : OptionForm.count.GivesFirst none digits text) : isNumber digits = true := by
  obtain ⟨front, hgives, _⟩ := h
  cases hgives with
  | intro _ _ _ hvalue hrun _ => exact digits_iff.mpr ⟨hvalue, hrun⟩

/-- No two of the words begin one text. -/
theorem word_begins_one {kind other : ModelKind} (h : kind.word.toList <+: text)
    (hother : other.word.toList <+: text) : kind = other := by
  have hor := List.prefix_or_prefix_of_prefix h hother
  revert hor
  cases kind <;> cases other <;> decide

theorem ne_word {kind other : ModelKind} (h : kind.word.toList <+: text) (hother : other ≠ kind) :
    text ≠ other.word.toList := by
  rintro rfl
  exact hother (word_begins_one List.prefix_rfl h)

theorem readModel_standard (h : lower (trim text) = ModelKind.standard.word.toList) :
    readModel process number text = .ok { kind := .standard, process } := by
  simp only [readModel, h, beq_self_eq_true, if_true]

theorem readModel_guaranteed (h : ModelKind.guaranteed.word.toList <+: lower (trim text)) :
    readModel process number text =
      match OptionForm.count.find? none (lower (trim text)) with
      | none => refuse number .guaranteedCount
      | some digits =>
          let scope := wordOption "scope" "per_round" (lower (trim text))
          if scope = "per_round" ∨ scope = "total" then do
            let count ← (readNumber digits).mapError .unconvertible
            let options : ModelOptions := { minMessages := some count, scope := some scope }
            return { kind := .guaranteed, options, process }
          else refuse number (.unknownScope scope) := by
  have hstandard := ne_word h (by decide : ModelKind.standard ≠ _)
  simp only [readModel, beq_iff_eq, if_neg hstandard, startsWith_iff.mpr h, if_true, find?_count]
  cases OptionForm.count.find? none (lower (trim text)) with
  | none => rfl
  | some digits => simp only [Bool.or_eq_true, beq_iff_eq]

theorem readModel_broadcast (h : ModelKind.broadcast.word.toList <+: lower (trim text)) :
    readModel process number text =
      let probability := wordOption "probability" "per_source" (lower (trim text))
      if probability = "per_source" ∨ probability = "uniform" then
        .ok { kind := .broadcast, options := { probability := some probability }, process }
      else refuse number (.unknownProbability probability) := by
  have hstandard := ne_word h (by decide : ModelKind.standard ≠ _)
  have hguaranteed : ¬ startsWith ModelKind.guaranteed.word.toList (lower (trim text)) = true := by
    rw [startsWith_iff]
    intro hword
    cases word_begins_one h hword
  simp only [readModel, beq_iff_eq, if_neg hstandard, if_neg hguaranteed, startsWith_iff.mpr h,
    if_true, Bool.or_eq_true]

theorem readModel_other (hstandard : lower (trim text) ≠ ModelKind.standard.word.toList)
    (hguaranteed : ¬ ModelKind.guaranteed.word.toList <+: lower (trim text))
    (hbroadcast : ¬ ModelKind.broadcast.word.toList <+: lower (trim text)) :
    readModel process number text = refuse number (.unknownModel (String.ofList text)) := by
  rw [← startsWith_iff] at hguaranteed hbroadcast
  simp only [readModel, beq_iff_eq, if_neg hstandard, if_neg hguaranteed, if_neg hbroadcast]

/-- A model that is read is what its text says. -/
theorem readsModel_of_readModel (h : readModel process number text = .ok spec) :
    ∃ kind options, ReadsModel (lower (trim text)) kind options ∧
      spec = { kind, options, process } := by
  by_cases hstandard : lower (trim text) = ModelKind.standard.word.toList
  · rw [readModel_standard hstandard] at h
    cases h
    exact ⟨_, _, .standard hstandard, rfl⟩
  by_cases hguaranteed : ModelKind.guaranteed.word.toList <+: lower (trim text)
  · rw [readModel_guaranteed hguaranteed] at h
    split at h
    · cases h
    · next digits hfind =>
      have hcount := OptionForm.find?_eq_some_iff.mp hfind
      dsimp only at h
      split at h
      · next hknown =>
        obtain ⟨count, hread, h⟩ := bind_eq_ok.mp h
        rw [mapError_eq_ok, readNumber_of_isNumber hcount.isNumber] at hread
        split at hread
        · cases hread
        · next hshort =>
          cases hread
          cases h
          exact ⟨_, _, .guaranteed hguaranteed hcount (Nat.not_lt.mp hshort)
            (wordOption_eq_iff.mp rfl) hknown, rfl⟩
      · cases h
  by_cases hbroadcast : ModelKind.broadcast.word.toList <+: lower (trim text)
  · rw [readModel_broadcast hbroadcast] at h
    dsimp only at h
    split at h
    · next hknown =>
      cases h
      exact ⟨_, _, .broadcast hbroadcast (wordOption_eq_iff.mp rfl) hknown, rfl⟩
    · cases h
  · rw [readModel_other hstandard hguaranteed hbroadcast] at h
    cases h

/-- What a text says is read. -/
theorem readModel_of_readsModel {kind : ModelKind} {options : ModelOptions}
    (h : ReadsModel (lower (trim text)) kind options) :
    readModel process number text = .ok { kind, options, process } := by
  cases h with
  | standard hword => exact readModel_standard hword
  | guaranteed hword hcount hshort hscope hknown =>
      rw [readModel_guaranteed hword, OptionForm.find?_eq_some_iff.mpr hcount]
      dsimp only
      rw [wordOption_eq_iff.mpr hscope, if_pos hknown, readNumber_of_isNumber hcount.isNumber,
        if_neg (Nat.not_lt.mpr hshort)]
      rfl
  | broadcast hword hprobability hknown =>
      rw [readModel_broadcast hword]
      dsimp only
      rw [wordOption_eq_iff.mpr hprobability, if_pos hknown]

/-- A model that is not read is refused on its line, unless its count is too long. -/
theorem refused_or_tooLong {error : ParseError} (h : readModel process number text = .error error) :
    (∃ fault, error = .refused (some (number : Int)) fault) ∨
      ∃ digits, OptionForm.count.GivesFirst none digits (lower (trim text)) ∧
        digitLimit < digits.length ∧
        error = .unconvertible (.integer (.tooLong digits.length)) := by
  by_cases hstandard : lower (trim text) = ModelKind.standard.word.toList
  · rw [readModel_standard hstandard] at h
    cases h
  by_cases hguaranteed : ModelKind.guaranteed.word.toList <+: lower (trim text)
  · rw [readModel_guaranteed hguaranteed] at h
    split at h
    · cases h
      exact .inl ⟨_, rfl⟩
    · next digits hfind =>
      have hcount := OptionForm.find?_eq_some_iff.mp hfind
      dsimp only at h
      split at h
      · rw [readNumber_of_isNumber hcount.isNumber] at h
        split at h
        · next hlong =>
          cases h
          exact .inr ⟨digits, hcount, hlong, rfl⟩
        · cases h
      · cases h
        exact .inl ⟨_, rfl⟩
  by_cases hbroadcast : ModelKind.broadcast.word.toList <+: lower (trim text)
  · rw [readModel_broadcast hbroadcast] at h
    dsimp only at h
    split at h
    · cases h
    · cases h
      exact .inl ⟨_, rfl⟩
  · rw [readModel_other hstandard hguaranteed hbroadcast] at h
    cases h
    exact .inl ⟨_, rfl⟩

end

/-! ## Texts of the grammar -/

section

variable {rest text : List Char} {written : List (String × List Char)} {kind : ModelKind}
  {options : ModelOptions}

theorem mem_leftOrWritten {name other : String} {value : List Char} {choice : Option String} :
    (other, value) ∈ leftOrWritten name choice ↔
      other = name ∧ ∃ word ∈ choice, value = word.toList := by
  cases choice <;> simp [leftOrWritten]

/-- The options of a guaranteed model, in whatever order. -/
theorem mem_of_perm {digits value : List Char} {scope : Option String} {name : String}
    (h : written.Perm (("k", digits) :: leftOrWritten "scope" scope)) :
    (name, value) ∈ written ↔ (name = "k" ∧ value = digits) ∨
      (name = "scope" ∧ ∃ word ∈ scope, value = word.toList) := by
  rw [h.mem_iff, List.mem_cons, Prod.mk.injEq, mem_leftOrWritten]

theorem lookup_of_perm {digits : List Char} {scope : Option String}
    (h : written.Perm (("k", digits) :: leftOrWritten "scope" scope)) :
    written.lookup "k" = some digits ∧ written.lookup "scope" = scope.map String.toList := by
  cases scope with
  | none =>
      obtain rfl := List.perm_singleton.mp h
      exact ⟨rfl, rfl⟩
  | some word =>
      obtain rfl | rfl := List.perm_pair.mp h
      · exact ⟨rfl, rfl⟩
      · exact ⟨rfl, rfl⟩

/-- A text whose option is found as it was left or written chooses it. -/
theorem chooses_of_find? {name default : String} {choice : Option String}
    (h : (OptionForm.worded name).find? none text = choice.map String.toList) :
    OptionForm.Chooses name default (choice.getD default) text := by
  cases choice with
  | none => exact .inr ⟨OptionForm.find?_eq_none_iff.mp h, rfl⟩
  | some word =>
      exact .inl ⟨word.toList, OptionForm.find?_eq_some_iff.mp h, String.ofList_toList.symm⟩

/-- A choice is the default or one of the words for it. -/
theorem getD_eq_or {choice : Option String} {one other : String}
    (h : ∀ word ∈ choice, word = one ∨ word = other) :
    choice.getD one = one ∨ choice.getD one = other := by
  cases choice with
  | none => exact .inl rfl
  | some word => exact h word rfl

section Guaranteed

variable {digits : List Char} {scope : Option String} (hnumber : isNumber digits = true)
  (hscope : ∀ word ∈ scope, word = "per_round" ∨ word = "total")
  (hwritten : written.Perm (("k", digits) :: leftOrWritten "scope" scope))
  (hoptions : IsOptions written rest)

include hnumber hscope hwritten hoptions

theorem find?_count_of_options :
    OptionForm.count.find? none (ModelKind.guaranteed.word.toList ++ rest) = some digits := by
  have hpassed : OptionForm.count.find? none (ModelKind.guaranteed.word.toList ++ rest) =
      OptionForm.count.find? (some 'd') rest :=
    OptionForm.find?_append rfl (by decide) rest
  rw [hpassed, ← (lookup_of_perm hwritten).1]
  refine hoptions.find?_eq_lookup rfl (by decide) ?_ ?_
  · intro value hmem
    rcases (mem_of_perm hwritten).mp hmem with ⟨_, rfl⟩ | ⟨hname, _⟩
    · exact digits_iff.mp hnumber
    · exact absurd hname (by decide)
  · intro name value hmem hname
    rcases (mem_of_perm hwritten).mp hmem with ⟨hk, _⟩ | ⟨rfl, word, hword, rfl⟩
    · exact absurd hk hname
    · rcases hscope word hword with rfl | rfl <;> decide

theorem find?_scope_of_options :
    (OptionForm.worded "scope").find? none (ModelKind.guaranteed.word.toList ++ rest) =
      scope.map String.toList := by
  have hpassed : (OptionForm.worded "scope").find? none (ModelKind.guaranteed.word.toList ++ rest) =
      (OptionForm.worded "scope").find? (some 'd') rest :=
    OptionForm.find?_append rfl (by decide) rest
  rw [hpassed, ← (lookup_of_perm hwritten).2]
  refine hoptions.find?_eq_lookup rfl (by decide) ?_ ?_
  · intro value hmem
    rcases (mem_of_perm hwritten).mp hmem with ⟨hname, _⟩ | ⟨_, word, hword, rfl⟩
    · exact absurd hname (by decide)
    · rcases hscope word hword with rfl | rfl <;> decide
  · intro name value hmem hname
    rcases (mem_of_perm hwritten).mp hmem with ⟨rfl, rfl⟩ | ⟨hs, _⟩
    · exact ⟨by decide, fun hs => absurd ((digits_iff.mp hnumber).2 's' hs) (by decide)⟩
    · exact absurd hs hname

end Guaranteed

theorem find?_probability_of_options {probability : Option String}
    (hprobability : ∀ word ∈ probability, word = "per_source" ∨ word = "uniform")
    (hoptions : IsOptions (leftOrWritten "probability" probability) rest) :
    (OptionForm.worded "probability").find? none (ModelKind.broadcast.word.toList ++ rest) =
      probability.map String.toList := by
  have hlookup : (leftOrWritten "probability" probability).lookup "probability" =
      probability.map String.toList := by
    cases probability <;> rfl
  have hpassed : (OptionForm.worded "probability").find? none
      (ModelKind.broadcast.word.toList ++ rest) =
        (OptionForm.worded "probability").find? (some 't') rest :=
    OptionForm.find?_append rfl (by decide) rest
  rw [hpassed, ← hlookup]
  refine hoptions.find?_eq_lookup rfl (by decide) ?_ ?_
  · intro value hmem
    obtain ⟨_, word, hword, rfl⟩ := mem_leftOrWritten.mp hmem
    rcases hprobability word hword with rfl | rfl <;> decide
  · intro name value hmem hname
    exact absurd (mem_leftOrWritten.mp hmem).1 hname

/-- A text of the grammar is read as it is written. -/
theorem IsModel.readsModel (h : IsModel (some digitLimit) text kind options) :
    ReadsModel text kind options := by
  cases h with
  | standard => exact .standard rfl
  | guaranteed hnumber hshort hscope hwritten hoptions =>
      have hcount := find?_count_of_options hnumber hscope hwritten hoptions
      have hword := find?_scope_of_options hnumber hscope hwritten hoptions
      exact .guaranteed (List.prefix_append _ _) (OptionForm.find?_eq_some_iff.mp hcount)
        (hshort _ rfl) (chooses_of_find? hword) (getD_eq_or hscope)
  | broadcast hprobability hoptions =>
      have hword := find?_probability_of_options hprobability hoptions
      exact .broadcast (List.prefix_append _ _) (chooses_of_find? hword) (getD_eq_or hprobability)

/-- A delivery model is read if and only if its text, in small letters and without the
blanks around it, says one by the options that it gives first; every text of the grammar
does, and is read as it is written.  Any other text is refused on its line, or gives a
count of too many digits. -/
theorem model_read_by_first_options (process : Option Int) (number : Nat) (text : List Char) :
    (∀ spec, readModel process number text = .ok spec ↔
      ∃ kind options, ReadsModel (lower (trim text)) kind options ∧
        spec = { kind, options, process }) ∧
    (∀ kind options, IsModel (some digitLimit) (lower (trim text)) kind options →
      readModel process number text = .ok { kind, options, process }) ∧
    ∀ error, readModel process number text = .error error →
      (∃ fault, error = .refused (some (number : Int)) fault) ∨
        ∃ digits, OptionForm.count.GivesFirst none digits (lower (trim text)) ∧
          digitLimit < digits.length ∧
          error = .unconvertible (.integer (.tooLong digits.length)) := by
  refine ⟨fun spec => ⟨readsModel_of_readModel, ?_⟩, ?_, fun error => refused_or_tooLong⟩
  · rintro ⟨kind, options, hreads, rfl⟩
    exact readModel_of_readsModel hreads
  · intro kind options hmodel
    exact readModel_of_readsModel hmodel.readsModel

/-- A model whose options stand in the other order, in mixed case and with blanks around
the equals signs. -/
def spacedModel : String := "  Guaranteed scope =TOTAL  K= 3 "

theorem spacedModel_read_by_first_options :
    IsModel (some digitLimit) (lower (trim spacedModel.toList)) .guaranteed
        { minMessages := some 3, scope := some "total" } ∧
      readModel (some 2) 7 spacedModel.toList = .ok {
        kind := .guaranteed
        options := { minMessages := some 3, scope := some "total" }
        process := some 2 } := by
  have hblank : Blanks [' '] := by
    intro c hc
    rw [List.mem_singleton.mp hc]
    rfl
  have hcount : IsOptions [("k", ['3'])] ([' ', ' '] ++ ("k".toList ++ ([] ++ '=' ::
      ([' '] ++ (['3'] ++ []))))) :=
    .cons (hblank.append hblank) (by decide) .nil hblank .nil
  have hmodel : IsModel (some digitLimit) (lower (trim spacedModel.toList)) .guaranteed
      { minMessages := some 3, scope := some "total" } := by
    have hscope : ∀ word ∈ some "total", word = "per_round" ∨ word = "total" := by simp
    exact .guaranteed (by decide) (by decide) hscope (List.Perm.swap _ _ _)
      (.cons hblank (by decide) hblank .nil hcount)
  exact ⟨hmodel, (model_read_by_first_options (some 2) 7 spacedModel.toList).2.1 _ _ hmodel⟩

/-! ## Texts beyond the grammar -/

/-- Options after which only a misspelt one could stand are not of the grammar. -/
theorem not_isOptions_misspelt {digits : List Char} {scope : Option String}
    (hnumber : isNumber digits = true)
    (hwritten : written.Perm (("k", digits) :: leftOrWritten "scope" scope)) :
    ¬ IsOptions written " k=2 scop=total".toList := by
  intro hoptions
  cases scope with
  | none =>
      obtain rfl := List.perm_singleton.mp hwritten
      obtain ⟨front, hparts⟩ := hoptions.suffix_of_singleton
      have hend : " k=2 scop=total".toList.getLast? = some 'l' := by decide
      have hlast := congrArg List.getLast? hparts
      rw [List.getLast?_append_of_ne_nil _ (digits_iff.mp hnumber).1, hend] at hlast
      exact absurd ((digits_iff.mp hnumber).2 'l' (List.mem_of_getLast? hlast)) (by decide)
  | some word =>
      have hmem := (mem_of_perm hwritten).mpr (.inr ⟨rfl, word, rfl, rfl⟩)
      have hscope := hoptions.name_isInfix hmem
      exact absurd hscope (by decide +kernel)

/-- A guaranteed model whose scope is misspelt. -/
def misspeltModel : String := "guaranteed k=2 scop=total"

/-- An option that is misspelt is passed over: its text is no model of the grammar, and
is read with the default in place of the value that it writes. -/
theorem misspelt_option_passed_over :
    (∀ kind options, ¬ IsModel none (lower (trim misspeltModel.toList)) kind options) ∧
      readModel none 5 misspeltModel.toList = .ok {
        kind := .guaranteed
        options := { minMessages := some 2, scope := some "per_round" } } := by
  constructor
  · intro kind options hmodel
    have hsmall : lower (trim misspeltModel.toList) =
        ModelKind.guaranteed.word.toList ++ " k=2 scop=total".toList := by decide +kernel
    generalize lower (trim misspeltModel.toList) = small at hmodel hsmall
    cases hmodel with
    | standard => exact absurd hsmall (by decide)
    | guaranteed hnumber _ _ hwritten hoptions =>
        rw [List.append_cancel_left hsmall] at hoptions
        exact not_isOptions_misspelt hnumber hwritten hoptions
    | broadcast => exact absurd (List.cons.inj hsmall).1 (by decide)
  · decide +kernel

end

end LossyConsensus.Source
