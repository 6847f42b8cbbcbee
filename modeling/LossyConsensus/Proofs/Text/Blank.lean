/-
# Texts and the blanks around them

A text is some blanks, what trimming leaves of it, and some blanks again; and
what trimming leaves begins and ends with no blank.  Readers that trim first see
the middle part only.  Lines that hold no line end are the lines of a text.
-/

import LossyConsensus.Text.Blank
import LossyConsensus.Text.Letter
import Mathlib.Data.List.TakeWhile

namespace LossyConsensus.Text

/-- A text of blanks only. -/
def Blanks (text : List Char) : Prop :=
  ∀ c ∈ text, isBlank c = true

/-- A text that is not empty and has no blank at either end. -/
structure Trimmed (text : List Char) : Prop where
  front : ∃ c rest, text = c :: rest ∧ isBlank c = false
  back : ∃ rest c, text = rest ++ [c] ∧ isBlank c = false

/-- What is asked of all characters of a text is decided along the text, and not
along all characters there are. -/
instance (priority := 2000) decidableForallMem {property : Char → Prop} [DecidablePred property]
    (text : List Char) : Decidable (∀ c ∈ text, property c) :=
  List.decidableBAll property text

/-! ## Runs -/

section Runs

variable {α : Type} {property : α → Bool} {run rest : List α}

/-- A run of what has a property ends where the property fails. -/
theorem takeWhile_run (hrun : ∀ a ∈ run, property a = true)
    (hrest : ∀ a ∈ rest.head?, property a = false) :
    (run ++ rest).takeWhile property = run := by
  rw [List.takeWhile_append_of_pos hrun]
  cases rest with
  | nil => simp
  | cons a rest => simp [hrest a rfl]

theorem dropWhile_run (hrun : ∀ a ∈ run, property a = true)
    (hrest : ∀ a ∈ rest.head?, property a = false) :
    (run ++ rest).dropWhile property = rest := by
  rw [List.dropWhile_append_of_pos hrun]
  cases rest with
  | nil => rfl
  | cons a rest => simp [hrest a rfl]

end Runs

/-! ## Blanks -/

theorem Blanks.nil : Blanks [] := by
  intro c hc
  cases hc

theorem Blanks.append {front back : List Char} (hfront : Blanks front) (hback : Blanks back) :
    Blanks (front ++ back) := by
  intro c hc
  rcases List.mem_append.mp hc with hc | hc
  · exact hfront c hc
  · exact hback c hc

theorem Blanks.reverse {text : List Char} (h : Blanks text) : Blanks text.reverse := by
  intro c hc
  exact h c (List.mem_reverse.mp hc)

theorem Blanks.head {c : Char} {text : List Char} (h : Blanks (c :: text)) : isBlank c = true :=
  h c List.mem_cons_self

theorem Blanks.tail {c : Char} {text : List Char} (h : Blanks (c :: text)) : Blanks text := by
  intro other hother
  exact h other (List.mem_cons_of_mem _ hother)

/-- The code points of all blanks. -/
def blankPoints : List Nat :=
  [9, 10, 11, 12, 13, 28, 29, 30, 31, 32, 0x85, 0xa0, 0x1680, 0x2000, 0x2001, 0x2002, 0x2003,
    0x2004, 0x2005, 0x2006, 0x2007, 0x2008, 0x2009, 0x200a, 0x2028, 0x2029, 0x202f, 0x205f, 0x3000]

theorem toNat_mem_blankPoints {c : Char} (h : isBlank c = true) : c.toNat ∈ blankPoints := by
  simp only [isBlank, Bool.or_eq_true, Bool.and_eq_true, decide_eq_true_eq, beq_iff_eq] at h
  simp only [blankPoints, List.mem_cons, List.not_mem_nil, or_false]
  omega

/-- What holds of the characters at all these points holds of every blank. -/
theorem forall_isBlank (property : Char → Bool)
    (h : ∀ point ∈ blankPoints, property (Char.ofNat point) = true) {c : Char}
    (hc : isBlank c = true) : property c = true := by
  have hpoint := h c.toNat (toNat_mem_blankPoints hc)
  rwa [Char.ofNat_toNat] at hpoint

/-- A character that lacks what every blank has is no blank. -/
theorem isBlank_eq_false (property : Char → Bool)
    (h : ∀ point ∈ blankPoints, property (Char.ofNat point) = true) {c : Char}
    (hc : property c = false) : isBlank c = false := by
  cases hblank : isBlank c with
  | false => rfl
  | true =>
      rw [forall_isBlank property h hblank] at hc
      cases hc

/-! ## Trimming -/

theorem trimLeft_append {gap text : List Char} (h : Blanks gap) :
    trimLeft (gap ++ text) = trimLeft text := by
  induction gap with
  | nil => rfl
  | cons c gap ih =>
      rw [List.cons_append, trimLeft, List.dropWhile_cons_of_pos h.head]
      exact ih h.tail

theorem trimLeft_cons {c : Char} {text : List Char} (h : isBlank c = false) :
    trimLeft (c :: text) = c :: text :=
  List.dropWhile_cons_of_neg (by simp [h])

/-- A text without its leading blanks: the blanks, and what is left. -/
theorem exists_trimLeft (text : List Char) :
    ∃ gap, Blanks gap ∧ text = gap ++ trimLeft text := by
  refine ⟨text.takeWhile isBlank, ?_, List.takeWhile_append_dropWhile.symm⟩
  intro c hc
  exact List.mem_takeWhile_imp hc

theorem front_of_trimLeft {text rest : List Char} {c : Char} (h : trimLeft text = c :: rest) :
    isBlank c = false := by
  have hhead := List.head?_dropWhile_not isBlank text
  rw [← trimLeft, h] at hhead
  simpa using hhead

namespace Trimmed

variable {text front back : List Char}

theorem ne_nil (h : Trimmed text) : text ≠ [] := by
  obtain ⟨c, rest, rfl, _⟩ := h.front
  exact List.cons_ne_nil c rest

theorem trimLeft_eq (h : Trimmed text) (rest : List Char) :
    trimLeft (text ++ rest) = text ++ rest := by
  obtain ⟨c, tail, rfl, hc⟩ := h.front
  exact trimLeft_cons hc

theorem reverse (h : Trimmed text) : Trimmed text.reverse := by
  obtain ⟨first, tail, hfront, hfirst⟩ := h.front
  obtain ⟨init, last, hback, hlast⟩ := h.back
  refine ⟨⟨last, init.reverse, ?_, hlast⟩, ⟨tail.reverse, first, ?_, hfirst⟩⟩
  · rw [hback, List.reverse_append]
    rfl
  · rw [hfront, List.reverse_cons]

/-- Trimming takes away the blanks around a trimmed text. -/
theorem trim_eq (h : Trimmed text) (hfront : Blanks front) (hback : Blanks back) :
    trim (front ++ text ++ back) = text := by
  rw [trim, trimRight, List.append_assoc, trimLeft_append hfront, h.trimLeft_eq back,
    List.reverse_append, ← trimLeft, trimLeft_append hback.reverse]
  have hreverse := h.reverse.trimLeft_eq []
  rw [List.append_nil] at hreverse
  rw [hreverse, List.reverse_reverse]

theorem trim_self (h : Trimmed text) : trim text = text := by
  have hself := h.trim_eq Blanks.nil Blanks.nil
  rwa [List.nil_append, List.append_nil] at hself

end Trimmed

/-- Trimming on the right is trimming on the left of the reversed text. -/
theorem trimRight_eq (text : List Char) : trimRight text = (trimLeft text.reverse).reverse :=
  rfl

/-- A text without its trailing blanks: what is left, and the blanks. -/
theorem exists_trimRight (text : List Char) :
    ∃ gap, Blanks gap ∧ text = trimRight text ++ gap := by
  rcases exists_trimLeft text.reverse with ⟨gap, hgap, hreverse⟩
  refine ⟨gap.reverse, hgap.reverse, ?_⟩
  have hflip := congrArg List.reverse hreverse
  rwa [List.reverse_reverse, List.reverse_append] at hflip

/-- A text is what trimming leaves of it between blanks. -/
theorem exists_trim (text : List Char) :
    ∃ front back, Blanks front ∧ Blanks back ∧ text = front ++ trim text ++ back := by
  rcases exists_trimLeft text with ⟨front, hfront, hleft⟩
  rcases exists_trimRight (trimLeft text) with ⟨back, hback, hright⟩
  refine ⟨front, back, hfront, hback, ?_⟩
  rw [List.append_assoc]
  exact hleft.trans (congrArg (front ++ ·) hright)

/-- What trimming leaves is trimmed, unless nothing is left. -/
theorem trimmed_trim {text : List Char} (h : trim text ≠ []) : Trimmed (trim text) := by
  constructor
  · rcases exists_trimRight (trimLeft text) with ⟨back, _, hright⟩
    rcases List.exists_cons_of_ne_nil h with ⟨c, rest, hfront⟩
    refine ⟨c, rest, hfront, ?_⟩
    rw [← trim, hfront, List.cons_append] at hright
    exact front_of_trimLeft hright
  · cases hreverse : trimLeft (trimLeft text).reverse with
    | nil =>
        apply absurd _ h
        rw [trim, trimRight_eq, hreverse]
        rfl
    | cons c rest =>
        refine ⟨rest.reverse, c, ?_, front_of_trimLeft hreverse⟩
        rw [trim, trimRight_eq, hreverse, List.reverse_cons]

/-- A part at the front of a trimmed text has blanks at its back only. -/
theorem Trimmed.left_part {left rest : List Char} (h : Trimmed (left ++ rest)) :
    trim left = [] ∨ ∃ gap, Blanks gap ∧ left = trim left ++ gap := by
  rcases exists_trim left with ⟨front, back, hfront, hback, hparts⟩
  cases front with
  | nil => exact .inr ⟨back, hback, hparts⟩
  | cons c front =>
      exfalso
      rcases h.front with ⟨first, tail, hfirst, hblank⟩
      rw [hparts] at hfirst
      cases hfirst
      exact absurd hfront.head (by simp [hblank])

/-- A part at the back of a trimmed text has blanks at its front only. -/
theorem Trimmed.right_part {rest right : List Char} (h : Trimmed (rest ++ right)) :
    trim right = [] ∨ ∃ gap, Blanks gap ∧ right = gap ++ trim right := by
  rcases exists_trim right with ⟨front, back, hfront, hback, hparts⟩
  rcases List.eq_nil_or_concat back with rfl | ⟨init, c, rfl⟩
  · exact .inr ⟨front, hfront, by rwa [List.append_nil] at hparts⟩
  · exfalso
    rcases h.back with ⟨text, last, hlast, hblank⟩
    rw [hparts, List.concat_eq_append, ← List.append_assoc, ← List.append_assoc] at hlast
    rcases List.append_inj' hlast rfl with ⟨_, hc⟩
    cases hc
    exact absurd (hback c (by simp)) (by simp [hblank])

/-- A part at the back of a trimmed text is not made of blanks. -/
theorem Trimmed.eq_nil_of_trim {rest right : List Char} (h : Trimmed (rest ++ right))
    (hright : trim right = []) : right = [] := by
  rcases exists_trim right with ⟨front, back, hfront, hback, hparts⟩
  rw [hright, List.append_nil] at hparts
  have hblanks : Blanks right := hparts ▸ hfront.append hback
  rcases List.eq_nil_or_concat right with hnil | ⟨init, c, rfl⟩
  · exact hnil
  · exfalso
    rcases h.back with ⟨text, last, hlast, hblank⟩
    rw [List.concat_eq_append, ← List.append_assoc] at hlast
    rcases List.append_inj' hlast rfl with ⟨_, hc⟩
    cases hc
    exact absurd (hblanks c (by simp)) (by simp [hblank])

/-- Trimming adds no character. -/
theorem mem_of_mem_trim {text : List Char} {c : Char} (h : c ∈ trim text) : c ∈ text := by
  rcases exists_trim text with ⟨front, back, _, _, hparts⟩
  rw [hparts]
  exact List.mem_append_left _ (List.mem_append_right _ h)

theorem trim_trim (text : List Char) : trim (trim text) = trim text := by
  by_cases h : trim text = []
  · rw [h]
    rfl
  · exact (trimmed_trim h).trim_self

/-! ## Lines -/

theorem linesFrom_cons {c : Char} (h : isLineEnd c = false) (begun rest : List Char) :
    linesFrom begun (c :: rest) = linesFrom (c :: begun) rest := by
  rw [linesFrom.eq_def]
  split
  · next heq => cases heq
  · next heq =>
    cases heq
    cases h
  · next heq =>
    cases heq
    rw [if_neg (by simp [h])]

theorem linesFrom_append {line : List Char} (h : ∀ c ∈ line, isLineEnd c = false)
    (begun rest : List Char) :
    linesFrom begun (line ++ rest) = linesFrom (line.reverse ++ begun) rest := by
  induction line generalizing begun with
  | nil => rfl
  | cons c line ih =>
      rw [List.forall_mem_cons] at h
      rw [List.cons_append, linesFrom_cons h.1, ih h.2, List.reverse_cons, List.append_assoc,
        List.singleton_append]

theorem linesFrom_lineFeed (begun rest : List Char) :
    linesFrom begun ('\n' :: rest) = begun.reverse :: linesFrom [] rest := by
  rw [linesFrom, if_pos (by decide)]
  intro _ hreturn
  exact absurd hreturn (by decide)

theorem map_snd_numberedLines (text : List Char) :
    (numberedLines text).map (·.2) = lines text := by
  simp [numberedLines, Function.comp_def]

/-- A line feed after each line gives a text with these lines. -/
theorem lines_flatMap {written : List (List Char)}
    (h : ∀ line ∈ written, ∀ c ∈ line, isLineEnd c = false) :
    lines (written.flatMap fun line => line ++ ['\n']) = written := by
  induction written with
  | nil => rfl
  | cons line written ih =>
      rw [List.forall_mem_cons] at h
      rw [List.flatMap_cons, List.append_assoc, lines, linesFrom_append h.1, List.append_nil,
        List.singleton_append, linesFrom_lineFeed, List.reverse_reverse, ← lines, ih h.2]

end LossyConsensus.Text
