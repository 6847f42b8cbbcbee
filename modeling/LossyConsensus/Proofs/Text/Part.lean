/-
# Parts of texts

What the readers cut out of a text stands in it, without gaps.  Small letters
and single spaces change a text, but a run of digits that stands in the changed
text stands in the text itself.
-/

import LossyConsensus.Proofs.Text.Scan
import LossyConsensus.Proofs.Text.Blank
import LossyConsensus.Text.Nesting
import Mathlib.Data.List.Forall2

namespace LossyConsensus.Text

variable {text word rest left right part seen shown : List Char} {c separator : Char} {depth : Int}

/-! ## What is left of a text -/

theorem trimLeft_isSuffix (text : List Char) : trimLeft text <:+ text :=
  List.dropWhile_suffix _

theorem trim_isInfix (text : List Char) : trim text <:+: text := by
  obtain ⟨front, back, _, _, hparts⟩ := exists_trim text
  exact ⟨front, back, hparts.symm⟩

theorem isSuffix_of_after? (h : after? word text = some rest) : rest <:+ text :=
  ⟨word, (after?_eq_some_iff.mp h).symm⟩

theorem isSuffix_of_blanks? (h : blanks? text = some rest) : rest <:+ text := by
  cases text with
  | nil => cases h
  | cons c text =>
      rw [blanks?] at h
      split at h
      · cases h
        exact (trimLeft_isSuffix text).trans (List.suffix_cons c text)
      · cases h

/-- A word in some case at the front of a text: its letters, and what follows
them. -/
theorem parts_of_afterAnyCase? (h : afterAnyCase? word text = some rest) :
    ∃ written, text = written ++ rest ∧
      List.Forall₂ (fun small c => isCaseOf small c = true) word written := by
  induction word generalizing text with
  | nil =>
      cases h
      exact ⟨[], rfl, .nil⟩
  | cons small word ih =>
      cases text with
      | nil => cases h
      | cons c text =>
          rw [afterAnyCase?] at h
          split at h
          · next hcase =>
            obtain ⟨written, rfl, hwritten⟩ := ih h
            exact ⟨c :: written, rfl, .cons hcase hwritten⟩
          · cases h

theorem isSuffix_of_afterAnyCase? (h : afterAnyCase? word text = some rest) : rest <:+ text := by
  obtain ⟨written, rfl, _⟩ := parts_of_afterAnyCase? h
  exact List.suffix_append written rest

theorem isInfix_of_parenthesised? (h : parenthesised? text = some part) : part <:+: text := by
  rw [parenthesised?_eq_some_iff] at h
  exact ⟨['('], [')'], h.symm⟩

theorem stripEnclosing_isInfix (text : List Char) : stripEnclosing text <:+: text := by
  fun_induction stripEnclosing text with
  | case1 text henclosed ih =>
      refine ih.trans ((trim_isInfix _).trans ?_)
      exact (List.dropLast_prefix _).isInfix.trans (List.drop_suffix 1 text).isInfix
  | case2 text hplain => exact List.infix_rfl

/-! ## Divisions -/

theorem isInfix_of_mem_splitOn (h : part ∈ splitOn separator text) : part <:+: text := by
  obtain ⟨length, hlength⟩ : ∃ length, text.length = length := ⟨_, rfl⟩
  induction length using Nat.strongRecOn generalizing text with
  | ind length ih =>
      obtain ⟨first, parts, hsplit, ⟨rfl, rfl⟩ | ⟨rest, rfl, rfl⟩⟩ := splitOn_cases separator text
      · rw [hsplit] at h
        obtain rfl := List.mem_singleton.mp h
        exact List.infix_rfl
      · rw [hsplit] at h
        rcases List.mem_cons.mp h with rfl | h
        · exact (List.prefix_append _ _).isInfix
        · rw [List.length_append, List.length_cons] at hlength
          refine (ih rest.length (by omega) h rfl).trans ?_
          exact (List.suffix_append_of_suffix (List.suffix_cons _ _)).isInfix

theorem not_mem_of_mem_splitOn (h : part ∈ splitOn separator text) : separator ∉ part := by
  induction text generalizing part with
  | nil =>
      rw [splitOn, List.mem_singleton] at h
      rw [h]
      exact List.not_mem_nil
  | cons c rest ih =>
      rw [splitOn] at h
      split at h
      · next hnil =>
        obtain ⟨first, parts, hsplit, _⟩ := splitOn_cases separator rest
        rw [hsplit] at hnil
        cases hnil
      · next first parts hsplit =>
        rw [hsplit] at ih
        split at h
        · rcases List.mem_cons.mp h with rfl | h
          · exact List.not_mem_nil
          · exact ih h
        · next hc =>
          rcases List.mem_cons.mp h with rfl | h
          · rw [List.mem_cons, not_or]
            exact ⟨fun heq => hc (beq_iff_eq.mpr heq.symm), ih List.mem_cons_self⟩
          · exact ih (List.mem_cons_of_mem _ h)

theorem isInfix_of_mem_splitOutsideFrom (h : part ∈ splitOutsideFrom separator depth seen text) :
    part <:+: seen.reverse ++ text := by
  induction text generalizing depth seen with
  | nil =>
      rw [splitOutsideFrom, List.mem_singleton] at h
      obtain rfl := h
      exact (List.prefix_append _ _).isInfix
  | cons c rest ih =>
      have hnext (depth : Int) (h : part ∈ splitOutsideFrom separator depth (c :: seen) rest) :
          part <:+: seen.reverse ++ c :: rest := by
        have hpart := ih h
        rwa [List.reverse_cons, List.append_assoc] at hpart
      simp only [splitOutsideFrom] at h
      generalize (if isOpening c then depth + 1 else if isClosing c then depth - 1 else depth) =
        depth' at h
      split at h
      · rcases List.mem_cons.mp h with rfl | h
        · exact (List.prefix_append _ _).isInfix
        · refine (ih h).trans ?_
          exact (List.suffix_append_of_suffix (List.suffix_cons _ _)).isInfix
      · exact hnext depth' h

theorem isInfix_of_mem_splitOutside (h : part ∈ splitOutside separator text) : part <:+: text := by
  obtain ⟨found, hfound, rfl⟩ := List.mem_map.mp h
  exact (trim_isInfix found).trans (isInfix_of_mem_splitOutsideFrom hfound)

theorem exists_of_cutFrom (h : cutFrom word seen text = some (left, right)) :
    seen.reverse ++ text = left ++ word ++ right := by
  induction text generalizing seen with
  | nil =>
      rw [cutFrom] at h
      split at h
      · next hempty =>
        cases h
        rw [List.isEmpty_iff.mp hempty]
        simp
      · cases h
  | cons c rest ih =>
      rw [cutFrom] at h
      split at h
      · next following hfollowing =>
        cases h
        rw [after?_eq_some_iff.mp hfollowing, List.append_assoc]
      · have hparts := ih h
        rwa [List.reverse_cons, List.append_assoc] at hparts

theorem isInfix_of_cut? (h : cut? word text = some (left, right)) :
    left <:+: text ∧ right <:+: text := by
  have hparts : text = left ++ word ++ right := exists_of_cutFrom h
  rw [hparts, List.append_assoc]
  exact ⟨(List.prefix_append _ _).isInfix,
    (List.suffix_append_of_suffix (List.suffix_append _ _)).isInfix⟩

theorem exists_of_cutOutsideFrom
    (h : cutOutsideFrom word depth seen shown text = some (left, right)) :
    ∃ between, seen.reverse ++ text = left ++ between ++ right := by
  induction text generalizing depth seen shown with
  | nil => cases h
  | cons c rest ih =>
      have hnext {depth : Int} {shown : List Char}
          (h : cutOutsideFrom word depth (c :: seen) shown rest = some (left, right)) :
          ∃ between, seen.reverse ++ c :: rest = left ++ between ++ right := by
        obtain ⟨between, hparts⟩ := ih h
        rw [List.reverse_cons, List.append_assoc] at hparts
        exact ⟨between, hparts⟩
      rw [cutOutsideFrom] at h
      split at h
      · exact hnext h
      · split at h
        · exact hnext h
        · split at h
          · cases h
            refine ⟨(c :: rest).take word.length, ?_⟩
            rw [List.append_assoc, List.take_append_drop]
          · exact hnext h

theorem isInfix_of_cutOutsideFrom (h : cutOutsideFrom word 0 [] shown text = some (left, right)) :
    left <:+: text ∧ right <:+: text := by
  obtain ⟨between, hparts⟩ := exists_of_cutOutsideFrom h
  rw [List.reverse_nil, List.nil_append] at hparts
  rw [hparts, List.append_assoc]
  exact ⟨(List.prefix_append _ _).isInfix,
    (List.suffix_append_of_suffix (List.suffix_append _ _)).isInfix⟩

/-! ## Runs of digits in a text that is written otherwise -/

/-- A text written otherwise: every digit is kept, and for any other character
stands something without digits.  That may be nothing, where no digit follows. -/
inductive Respelled : List Char → List Char → Prop
  | nil : Respelled [] []
  | digit {c : Char} {text shown : List Char} (hc : isDigit c = true) (h : Respelled text shown) :
      Respelled (c :: text) (c :: shown)
  | other {c : Char} {text small shown : List Char} (hsmall : ∀ d ∈ small, isDigit d = false)
      (hjoin : small = [] → ∀ d ∈ shown.head?, isDigit d = false) (h : Respelled text shown) :
      Respelled (c :: text) (small ++ shown)

theorem Respelled.isPrefix (h : Respelled text shown) {run : List Char}
    (hrun : ∀ c ∈ run, isDigit c = true) (hbegins : run <+: shown) : run <+: text := by
  induction h generalizing run with
  | nil => exact hbegins
  | @digit c text shown hc _ ih =>
      cases run with
      | nil => exact List.nil_prefix
      | cons d run =>
          rw [List.forall_mem_cons] at hrun
          obtain ⟨rfl, hrest⟩ := List.cons_prefix_cons.mp hbegins
          exact List.cons_prefix_cons.mpr ⟨rfl, ih hrun.2 hrest⟩
  | @other c text small shown hsmall hjoin _ _ =>
      cases run with
      | nil => exact List.nil_prefix
      | cons d run =>
          exfalso
          have hd : isDigit d = true := hrun d List.mem_cons_self
          cases small with
          | nil =>
              obtain ⟨rest, hrest⟩ := hbegins
              have hhead := hjoin rfl d (by rw [← List.nil_append shown, ← hrest]; rfl)
              rw [hd] at hhead
              cases hhead
          | cons s small =>
              obtain ⟨rfl, _⟩ := List.cons_prefix_cons.mp hbegins
              rw [hsmall d List.mem_cons_self] at hd
              cases hd

/-- A number in the text written otherwise stands in the text. -/
theorem Respelled.isInfix (h : Respelled text shown) {run : List Char}
    (hrun : isNumber run = true) (hwithin : run <:+: shown) : run <:+: text := by
  rw [isNumber, Bool.and_eq_true, List.all_eq_true, Bool.not_eq_true',
    List.isEmpty_eq_false_iff] at hrun
  obtain ⟨hnil, hdigits⟩ := hrun
  induction h with
  | nil => exact hwithin
  | @digit c text shown hc hrest ih =>
      rcases List.infix_cons_iff.mp hwithin with hbegins | hwithin
      · exact ((Respelled.digit hc hrest).isPrefix hdigits hbegins).isInfix
      · exact (ih hwithin).trans (List.suffix_cons c text).isInfix
  | @other c text small shown hsmall hjoin hrest ih =>
      have hlater : run <:+: shown := by
        clear hjoin
        induction small with
        | nil => exact hwithin
        | cons s small ihsmall =>
            rw [List.forall_mem_cons] at hsmall
            rcases List.infix_cons_iff.mp hwithin with hbegins | hwithin
            · obtain ⟨d, run, rfl⟩ := List.exists_cons_of_ne_nil hnil
              obtain ⟨rfl, _⟩ := List.cons_prefix_cons.mp hbegins
              rw [hdigits d List.mem_cons_self] at hsmall
              exact absurd hsmall.1 Bool.noConfusion
            · exact ihsmall hsmall.2 hwithin
      exact (ih hlater).trans (List.suffix_cons c text).isInfix

theorem exists_squeeze_of_isBlank {d : Char} (h : isBlank d = true) (rest : List Char) :
    ∃ shown, squeeze (d :: rest) = ' ' :: shown := by
  induction rest generalizing d with
  | nil => exact ⟨[], by rw [squeeze, if_pos h]⟩
  | cons e rest ih =>
      rw [squeeze, if_pos h]
      split
      · next he => exact ih he
      · exact ⟨_, rfl⟩

/-- Single spaces for runs of blanks. -/
theorem respelled_squeeze (text : List Char) : Respelled text (squeeze text) := by
  have hkeep {c : Char} {text shown : List Char} (h : Respelled text shown) :
      Respelled (c :: text) (c :: shown) := by
    cases hc : isDigit c with
    | true => exact .digit hc h
    | false =>
        have hother : Respelled (c :: text) ([c] ++ shown) :=
          .other (by simpa using hc) (by simp) h
        exact hother
  have hspace {c : Char} {text shown : List Char} (h : Respelled text shown) :
      Respelled (c :: text) (' ' :: shown) := by
    have hother : Respelled (c :: text) ([' '] ++ shown) := .other (by decide) (by simp) h
    exact hother
  induction text with
  | nil => exact .nil
  | cons c rest ih =>
      cases rest with
      | nil =>
          rw [squeeze]
          split
          · exact hspace .nil
          · exact hkeep .nil
      | cons d rest =>
          rw [squeeze]
          split
          · split
            · next hd =>
              obtain ⟨shown, hshown⟩ := exists_squeeze_of_isBlank hd rest
              have hother : Respelled (c :: d :: rest) ([] ++ squeeze (d :: rest)) := by
                refine .other (by simp) (fun _ e he => ?_) ih
                rw [hshown] at he
                cases he
                rfl
              exact hother
            · exact hspace ih
          · exact hkeep ih

end LossyConsensus.Text
