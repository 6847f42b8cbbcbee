/-
# Process ids in source texts

A process id is read from digits between blanks, if they are not too many and
the number is positive; and a list of ids from such texts with commas between
them.
-/

import LossyConsensus.Proofs.Except
import LossyConsensus.Proofs.Source.Word

namespace LossyConsensus.Source

open LossyConsensus.Decimal LossyConsensus.Text

variable {text part digits front back : List Char} {place argument : String} {n : Nat} {id : Int}

/-- The integers that can be read: those of digits that are not too many. -/
theorem readInteger_eq_ok_iff :
    readInteger text = .ok n ↔ (trimNumeral text).length ≤ digitLimit ∧
      isNumber (trimNumeral text) = true ∧ digitsValue (trimNumeral text) = n := by
  have hsize : isNumber (trimNumeral text) = true →
      (trimNumeral text).takeWhile isDigit = trimNumeral text :=
    fun hnumber => List.takeWhile_eq_self_iff.mpr (digits_iff.mp hnumber).2
  constructor
  · intro h
    simp only [readInteger] at h
    split at h
    · cases h
    · next hshort =>
      split at h
      · next hnumber =>
        cases h
        rw [hsize hnumber, Nat.not_lt] at hshort
        exact ⟨hshort, hnumber, rfl⟩
      · cases h
  · rintro ⟨hshort, hnumber, rfl⟩
    simp only [readInteger]
    rw [hsize hnumber, if_neg (Nat.not_lt.mpr hshort), if_pos hnumber]

/-- A number has no blank at either end. -/
theorem trimmed_of_isNumber (h : isNumber digits = true) : Trimmed digits := by
  have hdigits := digits_iff.mp h
  have hform : IsNumeral (digits ++ []) := .unsigned (.whole hdigits.1 hdigits.2) .absent
  rw [List.append_nil] at hform
  exact hform.trimmed

/-- Without a known number of processes every positive id is accepted. -/
theorem process_eq_ok_iff : ({} : Vocabulary).process place n = .ok id ↔ 1 ≤ id ∧ id = n := by
  simp only [Vocabulary.process, Option.any_none, Bool.or_false, decide_eq_true_eq]
  constructor
  · intro h
    split at h
    · cases h
    · cases h
      omega
  · rintro ⟨hpositive, rfl⟩
    rw [if_neg (by omega)]

/-- The texts of process ids. -/
theorem readProcess_eq_ok_iff (h : IsSourceText part) :
    ({} : Vocabulary).readProcess place part = .ok id ↔
      ∃ front digits back, Blanks front ∧ Blanks back ∧ part = front ++ digits ++ back ∧
        IsId (some digitLimit) digits id := by
  simp only [Vocabulary.readProcess, readNumber, bind_eq_ok, mapError_eq_ok,
    readInteger_eq_ok_iff, process_eq_ok_iff, trimNumeral_eq_trim h]
  constructor
  · rintro ⟨n, ⟨hshort, hnumber, hvalue⟩, hpositive, rfl⟩
    rcases exists_trim part with ⟨front, back, hfront, hback, hparts⟩
    refine ⟨front, trim part, back, hfront, hback, hparts, hnumber, ?_, ?_, hpositive⟩
    · intro most hmost
      rw [Option.mem_some_iff] at hmost
      rwa [← hmost]
    · rw [hvalue]
  · rintro ⟨front, digits, back, hfront, hback, rfl, hid⟩
    rw [(trimmed_of_isNumber hid.number).trim_eq hfront hback]
    exact ⟨_, ⟨hid.short digitLimit rfl, hid.number, rfl⟩, hid.positive, hid.value⟩

theorem comma_not_mem (hfront : Blanks front) (hnumber : isNumber digits = true)
    (hback : Blanks back) : ',' ∉ front ++ digits ++ back := by
  intro hmem
  rcases List.mem_append.mp hmem with hmem | hmem
  · rcases List.mem_append.mp hmem with hmem | hmem
    · exact absurd (hfront ',' hmem) (by decide)
    · exact absurd ((digits_iff.mp hnumber).2 ',' hmem) (by decide)
  · exact absurd (hback ',' hmem) (by decide)

/-- An id between blanks is a part of a list that is not empty. -/
theorem trim_part_ne_nil (hfront : Blanks front) (hnumber : isNumber digits = true)
    (hback : Blanks back) : (trim (front ++ digits ++ back)).isEmpty = false := by
  rw [(trimmed_of_isNumber hnumber).trim_eq hfront hback]
  exact List.isEmpty_eq_false_iff.mpr (digits_iff.mp hnumber).1

theorem readSenders_cons_eq_ok_iff {v : Vocabulary} {parts : List (List Char)} {ids : List Int} :
    readSenders v place argument (part :: parts) = .ok ids ↔
      (trim part).isEmpty = false ∧ ∃ id rest, v.readProcess place part = .ok id ∧
        readSenders v place argument parts = .ok rest ∧ ids = id :: rest := by
  rw [readSenders]
  by_cases hempty : (trim part).isEmpty = true
  · simp [hempty, throw, throwThe, MonadExceptOf.throw, bind, Except.bind]
  · simp only [hempty, Bool.false_eq_true, if_false, bind_eq_ok, pure_eq_ok]
    constructor
    · rintro ⟨id, hid, rest, hrest, rfl⟩
      exact ⟨trivial, id, rest, hid, hrest, rfl⟩
    · rintro ⟨_, id, rest, hid, hrest, rfl⟩
      exact ⟨id, hid, rest, hrest, rfl⟩

/-- The texts of lists of process ids. -/
theorem readSenders_eq_ok_iff {list : List Char} {ids : List Int} (h : IsSourceText list) :
    readSenders {} place argument (splitOn ',' list) = .ok ids ↔
      IsIdList (some digitLimit) list ids := by
  constructor
  · intro hread
    generalize hparts : splitOn ',' list = parts at hread
    induction parts generalizing list ids with
    | nil =>
        rcases splitOn_cases ',' list with ⟨part, parts, hsplit, _⟩
        rw [hsplit] at hparts
        cases hparts
    | cons part parts ih =>
        rcases splitOn_cases ',' list with ⟨_, _, hsplit, hcases⟩
        rw [hsplit] at hparts
        cases hparts
        rcases readSenders_cons_eq_ok_iff.mp hread with ⟨_, id, ids, hhead, hrest, rfl⟩
        rcases hcases with ⟨rfl, rfl⟩ | ⟨rest, rfl, rfl⟩
        · cases hrest
          rcases (readProcess_eq_ok_iff h).mp hhead with
            ⟨front, digits, back, hfront, hback, rfl, hid⟩
          exact .last hfront hid hback
        · rw [IsSourceText.append_iff, IsSourceText.cons_iff] at h
          rcases (readProcess_eq_ok_iff h.1).mp hhead with
            ⟨front, digits, back, hfront, hback, rfl, hid⟩
          exact .next hfront hid hback (ih h.2.2 rfl hrest)
  · intro hlist
    induction hlist with
    | @last front digits back id hfront hid hback =>
        rw [splitOn_eq_self (comma_not_mem hfront hid.number hback), readSenders_cons_eq_ok_iff]
        refine ⟨trim_part_ne_nil hfront hid.number hback, id, [], ?_, rfl, rfl⟩
        exact (readProcess_eq_ok_iff h).mpr ⟨front, digits, back, hfront, hback, rfl, hid⟩
    | @next front digits back rest id ids hfront hid hback _ ih =>
        rw [IsSourceText.append_iff, IsSourceText.cons_iff] at h
        rw [splitOn_append (comma_not_mem hfront hid.number hback), readSenders_cons_eq_ok_iff]
        refine ⟨trim_part_ne_nil hfront hid.number hback, id, ids, ?_, ih h.2.2, rfl⟩
        exact (readProcess_eq_ok_iff h.1).mpr ⟨front, digits, back, hfront, hback, rfl, hid⟩

/-- A list of process ids has digits, commas and blanks only. -/
theorem IsIdList.isSenderList {limit : Option Nat} {list : List Char} {ids : List Int}
    (h : IsIdList limit list ids) : isSenderList list = true := by
  have hpart : ∀ {front digits back : List Char}, Blanks front → isNumber digits = true →
      Blanks back → ∀ c ∈ front ++ digits ++ back, (isDigit c || c == ',' || isBlank c) = true := by
    intro front digits back hfront hnumber hback c hc
    rw [Bool.or_eq_true, Bool.or_eq_true]
    rcases List.mem_append.mp hc with hc | hc
    · rcases List.mem_append.mp hc with hc | hc
      · exact .inr (hfront c hc)
      · exact .inl (.inl ((digits_iff.mp hnumber).2 c hc))
    · exact .inr (hback c hc)
  have hnil : ∀ {front digits back : List Char}, isNumber digits = true →
      front ++ digits ++ back ≠ [] := by
    intro front digits back hnumber
    simp [(digits_iff.mp hnumber).1]
  simp only [Source.isSenderList, Bool.and_eq_true, Bool.not_eq_true', List.isEmpty_eq_false_iff,
    List.all_eq_true]
  induction h with
  | last hfront hid hback => exact ⟨hnil hid.number, hpart hfront hid.number hback⟩
  | next hfront hid hback _ ih =>
      constructor
      · exact List.append_ne_nil_of_left_ne_nil (hnil hid.number) _
      · intro c hc
        rcases List.mem_append.mp hc with hc | hc
        · exact hpart hfront hid.number hback c hc
        · rcases List.mem_cons.mp hc with rfl | hc
          · rfl
          · exact ih.2 c hc

end LossyConsensus.Source
