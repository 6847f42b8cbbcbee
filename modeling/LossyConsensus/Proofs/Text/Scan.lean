/-
# What the small readers read

Each reader of the front of a text accepts exactly the texts of one shape, and
the division at a separator is undone by putting the separators back.
-/

import LossyConsensus.Text.Scan

namespace LossyConsensus.Text

variable {word text rest argument part : List Char} {separator : Char}

theorem after?_append (word rest : List Char) : after? word (word ++ rest) = some rest := by
  induction word with
  | nil => rfl
  | cons w word ih =>
      rw [List.cons_append, after?, if_pos (beq_self_eq_true w)]
      exact ih

theorem after?_eq_some_iff : after? word text = some rest ↔ text = word ++ rest := by
  constructor
  · intro h
    induction word generalizing text with
    | nil =>
        cases h
        rfl
    | cons w word ih =>
        cases text with
        | nil => cases h
        | cons c text =>
            rw [after?] at h
            split at h
            · next hsame =>
              rw [ih h, beq_iff_eq.mp hsame, List.cons_append]
            · cases h
  · rintro rfl
    exact after?_append word rest

theorem after?_cons_ne {w c : Char} (h : w ≠ c) : after? (w :: word) (c :: text) = none := by
  rw [after?, if_neg (by rwa [beq_iff_eq])]

theorem startsWith_iff : startsWith word text = true ↔ word <+: text := by
  rw [startsWith, Option.isSome_iff_exists]
  constructor
  · rintro ⟨rest, h⟩
    exact ⟨rest, (after?_eq_some_iff.mp h).symm⟩
  · rintro ⟨rest, rfl⟩
    exact ⟨rest, after?_append word rest⟩

theorem atWordEnd_iff : atWordEnd text = true ↔ ∀ c ∈ text.head?, isWordChar c = false := by
  cases text with
  | nil => simp [atWordEnd]
  | cons c text => simp [atWordEnd]

/-- A number at the front of a text, and what follows it. -/
theorem eq_of_number? {digits : List Char} (h : number? text = some (digits, rest)) :
    isNumber digits = true ∧ text = digits ++ rest := by
  rw [number?] at h
  split at h
  · cases h
  · next hnil =>
    cases h
    refine ⟨?_, List.takeWhile_append_dropWhile.symm⟩
    rw [isNumber, Bool.eq_false_iff.mpr hnil, List.all_takeWhile]
    rfl

theorem parenthesised?_eq_some_iff :
    parenthesised? text = some argument ↔ text = '(' :: (argument ++ [')']) := by
  constructor
  · intro h
    simp only [parenthesised?] at h
    split at h
    · next rest =>
      split at h
      · next hlast =>
        cases h
        rcases List.getLast?_eq_some_iff.mp (beq_iff_eq.mp hlast) with ⟨body, rfl⟩
        rw [List.dropLast_concat]
      · cases h
    · cases h
  · rintro rfl
    simp [parenthesised?]

/-- A division begins with a part that ends at the first separator, if there is
one. -/
theorem splitOn_cases (separator : Char) (text : List Char) :
    ∃ part parts, splitOn separator text = part :: parts ∧
      ((parts = [] ∧ text = part) ∨
        ∃ rest, text = part ++ separator :: rest ∧ parts = splitOn separator rest) := by
  induction text with
  | nil => exact ⟨[], [], rfl, .inl ⟨rfl, rfl⟩⟩
  | cons c text ih =>
      rcases ih with ⟨part, parts, hsplit, hparts⟩
      simp only [splitOn, hsplit]
      by_cases hc : c = separator
      · subst hc
        exact ⟨[], part :: parts, by simp, .inr ⟨text, rfl, hsplit.symm⟩⟩
      · refine ⟨c :: part, parts, by simp [hc], ?_⟩
        rcases hparts with ⟨rfl, rfl⟩ | ⟨rest, rfl, rfl⟩
        · exact .inl ⟨rfl, rfl⟩
        · exact .inr ⟨rest, rfl, rfl⟩

theorem splitOn_eq_self (h : separator ∉ part) : splitOn separator part = [part] := by
  induction part with
  | nil => rfl
  | cons c part ih =>
      rw [List.mem_cons, not_or] at h
      rw [splitOn, ih h.2]
      simp [Ne.symm h.1]

theorem splitOn_append (h : separator ∉ part) (rest : List Char) :
    splitOn separator (part ++ separator :: rest) = part :: splitOn separator rest := by
  induction part with
  | nil =>
      rcases splitOn_cases separator rest with ⟨first, parts, hsplit, _⟩
      rw [List.nil_append, splitOn, hsplit]
      simp
  | cons c part ih =>
      rw [List.mem_cons, not_or] at h
      rw [List.cons_append, splitOn, ih h.2]
      simp [Ne.symm h.1]

end LossyConsensus.Text
