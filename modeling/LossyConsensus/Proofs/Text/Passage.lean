/-
# Dividing at a word

A scan for a word outside brackets goes through a text from its front, and
compares the word with the characters that follow, as they are or in small
letters.  A part of a text is passed over when the word begins at none of its
characters outside brackets; what follows the part is therefore a parameter.
-/

import LossyConsensus.Proofs.Text.Bracket
import LossyConsensus.Proofs.Text.Scan

namespace LossyConsensus.Text

variable {shown : Char → Char} {word text first second following left right seen : List Char}
  {c d : Char}

/-- A scan for a word passes over a text that stands before `following`;
`shown` is the form in which characters are compared. -/
def Passes (shown : Char → Char) (word text following : List Char) : Prop :=
  ∀ seen, cutOutsideFrom word 0 seen ((text ++ following).map shown) (text ++ following) =
    cutOutsideFrom word 0 (text.reverse ++ seen) (following.map shown) following

/-- How the scan goes on at a character that is no bracket. -/
theorem cutOutsideFrom_plain (hopening : isOpening c = false) (hclosing : isClosing c = false)
    {depth : Int} (hno : depth = 0 → ¬ word <+: (c :: following).map shown) :
    cutOutsideFrom word depth seen ((c :: following).map shown) (c :: following) =
      cutOutsideFrom word depth (c :: seen) (following.map shown) following := by
  have hgo : (depth == 0 && startsWith word ((c :: following).map shown)) = false := by
    rw [Bool.and_eq_false_iff, beq_eq_false_iff_ne, Bool.eq_false_iff, Ne, Ne, startsWith_iff]
    exact Classical.or_iff_not_imp_left.mpr fun hdepth => hno (not_not.mp hdepth)
  rw [cutOutsideFrom, hopening, hclosing, hgo]
  rfl

/-- The scan passes over a pair of brackets when it passes over what they hold,
one level deeper. -/
theorem cutOutsideFrom_pair {opening closing : Char} {depth : Int}
    (hopening : isOpening opening = true) (hother : isOpening closing = false)
    (hclosing : isClosing closing = true)
    (hinner : ∀ seen following,
      cutOutsideFrom word (depth + 1) seen ((text ++ following).map shown) (text ++ following) =
        cutOutsideFrom word (depth + 1) (text.reverse ++ seen) (following.map shown) following)
    (seen following : List Char) :
    cutOutsideFrom word depth seen ((opening :: (text ++ [closing]) ++ following).map shown)
        (opening :: (text ++ [closing]) ++ following) =
      cutOutsideFrom word depth ((opening :: (text ++ [closing])).reverse ++ seen)
        (following.map shown) following := by
  have htext : opening :: (text ++ [closing]) ++ following =
      opening :: (text ++ closing :: following) := by simp
  have hreverse : (opening :: (text ++ [closing])).reverse ++ seen =
      closing :: (text.reverse ++ opening :: seen) := by simp
  rw [htext, hreverse, List.map_cons, cutOutsideFrom, if_pos hopening, List.drop_one,
    List.tail_cons, hinner, List.map_cons, cutOutsideFrom, hother, if_neg Bool.false_ne_true,
    if_pos hclosing, List.drop_one, List.tail_cons, Int.add_sub_cancel]

/-- The scan passes over a balanced text inside brackets, and outside them when
the word begins with another character than those of the text. -/
theorem Balanced.cutOutsideFrom_eq {front : Char} (htext : Balanced text) {depth : Int}
    (hdepth : 0 ≤ depth) (hfront : depth = 0 → ∀ c ∈ text, shown c ≠ front)
    (seen following : List Char) :
    cutOutsideFrom (front :: word) depth seen ((text ++ following).map shown) (text ++ following) =
      cutOutsideFrom (front :: word) depth (text.reverse ++ seen) (following.map shown)
        following := by
  induction htext generalizing depth seen following with
  | nil => rfl
  | @plain c hopening hclosing =>
      apply cutOutsideFrom_plain hopening hclosing
      rintro hzero ⟨rest, hrest⟩
      rw [List.cons_append, List.map_cons, List.cons.injEq] at hrest
      exact hfront hzero c List.mem_cons_self hrest.1.symm
  | @append first second _ _ ihfirst ihsecond =>
      have hfirst := ihfirst hdepth fun hzero c hc => hfront hzero c (List.mem_append_left _ hc)
      have hsecond := ihsecond hdepth fun hzero c hc => hfront hzero c (List.mem_append_right _ hc)
      rw [List.append_assoc, hfirst, hsecond, List.reverse_append, List.append_assoc]
  | round _ ih =>
      exact cutOutsideFrom_pair (by decide) (by decide) (by decide)
        (ih (by omega) (by omega)) seen following
  | square _ ih =>
      exact cutOutsideFrom_pair (by decide) (by decide) (by decide)
        (ih (by omega) (by omega)) seen following

namespace Passes

theorem nil : Passes shown word [] following :=
  fun _ => rfl

theorem append (hfirst : Passes shown word first (second ++ following))
    (hsecond : Passes shown word second following) :
    Passes shown word (first ++ second) following := by
  intro seen
  rw [List.append_assoc, hfirst seen, hsecond, List.reverse_append, List.append_assoc]

/-- The scan passes over a character at which the word does not begin. -/
theorem char (hopening : isOpening c = false) (hclosing : isClosing c = false)
    (h : ¬ word <+: (c :: following).map shown) : Passes shown word [c] following :=
  fun _ => cutOutsideFrom_plain hopening hclosing fun _ => h

/-- The scan passes over a balanced text in which the first character of the
word does not occur. -/
theorem of_balanced {front : Char} (htext : Balanced text) (h : ∀ c ∈ text, shown c ≠ front) :
    Passes shown (front :: word) text following :=
  fun seen => htext.cutOutsideFrom_eq (Int.le_refl 0) (fun _ => h) seen following

/-- The scan passes over parentheses whatever they hold, if the word does not
begin with one. -/
theorem round {front : Char} (htext : Balanced text) :
    Passes shown (front :: word) ('(' :: (text ++ [')'])) following :=
  fun seen => cutOutsideFrom_pair (by decide) (by decide) (by decide)
    (htext.cutOutsideFrom_eq (by decide) (by omega)) seen following

/-- Nothing is found in a text that is passed over to its end. -/
theorem eq_none (h : Passes shown word text []) :
    cutOutsideFrom word 0 [] (text.map shown) text = none := by
  have hend := h []
  rwa [List.append_nil] at hend

/-- A word after a text that is passed over is found. -/
theorem eq_some {front : Char} (hopening : isOpening front = false)
    (hclosing : isClosing front = false) (hword : (front :: word).map shown = front :: word)
    (h : Passes shown (front :: word) left (front :: (word ++ right))) :
    cutOutsideFrom (front :: word) 0 [] ((left ++ front :: (word ++ right)).map shown)
      (left ++ front :: (word ++ right)) = some (left, right) := by
  have hstarts : startsWith (front :: word) ((front :: (word ++ right)).map shown) = true := by
    rw [startsWith_iff, ← List.cons_append, List.map_append, hword]
    exact List.prefix_append _ _
  rw [h [], cutOutsideFrom, hopening, hclosing, hstarts]
  simp

/-- A word in another form after a text that is passed over is found. -/
theorem eq_some_of_map {front : Char} {written : List Char} (hopening : isOpening c = false)
    (hclosing : isClosing c = false) (hwritten : (c :: written).map shown = front :: word)
    (h : Passes shown (front :: word) left (c :: (written ++ right))) :
    cutOutsideFrom (front :: word) 0 [] ((left ++ c :: (written ++ right)).map shown)
      (left ++ c :: (written ++ right)) = some (left, right) := by
  have hstarts : startsWith (front :: word) ((c :: (written ++ right)).map shown) = true := by
    rw [startsWith_iff, ← List.cons_append, List.map_append, hwritten]
    exact List.prefix_append _ _
  have hlength : word.length = written.length := by
    have hsame := congrArg List.length hwritten
    simpa using hsame.symm
  rw [h [], cutOutsideFrom, hopening, hclosing, hstarts]
  simp [hlength]

/-- The scan passes over a text without brackets at no character of which the word
begins. -/
theorem of_not_begins (hplain : ∀ c ∈ text, isOpening c = false ∧ isClosing c = false)
    (h : ∀ suffix, suffix <:+ text → suffix ≠ [] → ¬ word <+: (suffix ++ following).map shown) :
    Passes shown word text following := by
  induction text with
  | nil => exact nil
  | cons c text ih =>
      rw [List.forall_mem_cons] at hplain
      have hfirst : Passes shown word [c] (text ++ following) :=
        char hplain.1.1 hplain.1.2 (h (c :: text) List.suffix_rfl (List.cons_ne_nil c text))
      exact hfirst.append (ih hplain.2 fun suffix hsuffix =>
        h suffix (hsuffix.trans (List.suffix_cons c text)))

end Passes

/-- A division at separators is a division at the first of them and of what
follows it. -/
theorem splitOutsideFrom_eq {separator : Char} (hopening : isOpening separator = false)
    (hclosing : isClosing separator = false) (depth : Int) (part text : List Char) :
    splitOutsideFrom separator depth part text =
      match cutOutsideFrom [separator] depth part text text with
      | some (left, right) => left :: splitOutsideFrom separator 0 [] right
      | none => [part.reverse ++ text] := by
  induction text generalizing depth part with
  | nil => rw [splitOutsideFrom, cutOutsideFrom, List.append_nil]
  | cons c text ih =>
      have hparts : (c :: part).reverse ++ text = part.reverse ++ c :: text := by simp
      rw [splitOutsideFrom, cutOutsideFrom, List.drop_one, List.tail_cons, ← hparts]
      by_cases hopen : isOpening c = true
      · have hc : (c == separator) = false := by
          rw [beq_eq_false_iff_ne]
          rintro rfl
          rw [hopening] at hopen
          cases hopen
        simp only [hopen, if_true, hc, Bool.false_and, Bool.false_eq_true, if_false, ih]
      · by_cases hclose : isClosing c = true
        · have hc : (c == separator) = false := by
            rw [beq_eq_false_iff_ne]
            rintro rfl
            rw [hclosing] at hclose
            cases hclose
          simp only [hopen, if_false, hclose, if_true, hc, Bool.false_and, Bool.false_eq_true, ih]
        · by_cases hc : c = separator
          · subst hc
            by_cases hdepth : depth = 0
            · subst hdepth
              simp [hopen, hclose, startsWith, after?]
            · simp [hopen, hclose, hdepth, ih]
          · simp [hopen, hclose, hc, startsWith, after?, Ne.symm hc, ih]

end LossyConsensus.Text
