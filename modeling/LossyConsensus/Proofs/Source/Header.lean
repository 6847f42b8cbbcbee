/-
# Header lines

The header of a section is its name, then blanks, then nothing or a colon and
the content of the section's first line.  No line is the header of two
sections: one name begins another only for INITIAL and INITIAL VALUES, and what
follows the first word of the longer name is neither a colon nor the end.
-/

import LossyConsensus.Proofs.Text.Blank
import LossyConsensus.Proofs.Text.Scan
import LossyConsensus.Source.Header

namespace LossyConsensus.Source

open LossyConsensus.Text

variable {kind other : Section} {line text inline content : List Char}

/-! ## The shapes of headers -/

/-- A line that names a section, with or without a colon, and holds nothing
else. -/
def IsBareHeader (kind : Section) (line : List Char) : Prop :=
  ∃ gap, Blanks gap ∧ (trim line = kind.word.toList ++ gap ∨
    trim line = kind.word.toList ++ gap ++ [':'])

/-- A line that names a section and holds the content after a colon. -/
def IsFilledHeader (kind : Section) (content line : List Char) : Prop :=
  Trimmed content ∧ ∃ gap before, Blanks gap ∧ Blanks before ∧
    trim line = kind.word.toList ++ gap ++ ':' :: (before ++ content)

/-- A line that opens a section. -/
def IsHeaderLine (line : List Char) : Prop :=
  ∃ kind, IsBareHeader kind line ∨ ∃ content, IsFilledHeader kind content line

theorem inline?_eq_some_iff : kind.inline? text = some inline ↔
    ∃ gap, Blanks gap ∧ ((text = kind.word.toList ++ gap ∧ inline = []) ∨
      ∃ written, text = kind.word.toList ++ gap ++ ':' :: written ∧ inline = trim written) := by
  constructor
  · intro h
    simp only [Section.inline?, Option.bind_eq_bind, Option.bind_eq_some_iff] at h
    obtain ⟨rest, hrest, h⟩ := h
    obtain rfl := after?_eq_some_iff.mp hrest
    obtain ⟨gap, hgap, hparts⟩ := exists_trimLeft rest
    refine ⟨gap, hgap, ?_⟩
    split at h
    · next hnil =>
      cases h
      rw [hnil, List.append_nil] at hparts
      exact .inl ⟨hparts ▸ rfl, rfl⟩
    · next written hcolon =>
      cases h
      rw [hcolon] at hparts
      exact .inr ⟨written, by rw [hparts, List.append_assoc], rfl⟩
    · cases h
  · rintro ⟨gap, hgap, ⟨rfl, rfl⟩ | ⟨written, rfl, rfl⟩⟩
    · have hnil : trimLeft (gap ++ []) = trimLeft [] := trimLeft_append hgap
      rw [List.append_nil] at hnil
      simp only [Section.inline?, after?_append, Option.bind_eq_bind, Option.bind_some, hnil]
      rfl
    · simp only [Section.inline?, List.append_assoc, after?_append, Option.bind_eq_bind,
        Option.bind_some, trimLeft_append hgap]
      rfl

/-! ## One section for each header -/

theorem mem_all (kind : Section) : kind ∈ Section.all := by
  cases kind <;> decide

/-- One name begins another only where both are one, or for the two sections
with initial values. -/
theorem word_prefix {kind other : Section} (h : kind.word.toList <+: other.word.toList) :
    kind = other ∨ (kind = .initial ∧ other = .initialValues) := by
  have hall : ∀ kind ∈ Section.all, ∀ other ∈ Section.all,
      kind.word.toList <+: other.word.toList →
        kind = other ∨ (kind = .initial ∧ other = .initialValues) := by
    decide
  exact hall kind (mem_all kind) other (mem_all other) h

theorem inline?_initial_of_initialValues (rest : List Char) :
    Section.initial.inline? (Section.initialValues.word.toList ++ rest) = none :=
  rfl

theorem word_prefix_of_inline? (h : kind.inline? text = some inline) :
    kind.word.toList <+: text := by
  obtain ⟨gap, _, ⟨rfl, _⟩ | ⟨written, rfl, _⟩⟩ := inline?_eq_some_iff.mp h
  · exact List.prefix_append _ _
  · exact (List.prefix_append _ _).trans (List.prefix_append _ _)

theorem eq_of_inline? {inline' : List Char} (h : kind.inline? text = some inline)
    (h' : other.inline? text = some inline') : kind = other := by
  have hclash {inline'' : List Char} (h : Section.initial.inline? text = some inline'')
      (hbegins : Section.initialValues.word.toList <+: text) : False := by
    obtain ⟨rest, rfl⟩ := hbegins
    rw [inline?_initial_of_initialValues] at h
    cases h
  have hkind := word_prefix_of_inline? h
  have hother := word_prefix_of_inline? h'
  rcases List.prefix_or_prefix_of_prefix hkind hother with hword | hword
  · rcases word_prefix hword with rfl | ⟨rfl, rfl⟩
    · rfl
    · exact (hclash h hother).elim
  · rcases word_prefix hword with rfl | ⟨rfl, rfl⟩
    · rfl
    · exact (hclash h' hkind).elim

theorem header?_eq_some_iff :
    header? text = some (kind, inline) ↔ kind.inline? text = some inline := by
  constructor
  · intro h
    obtain ⟨found, _, hfound⟩ := List.exists_of_findSome?_eq_some h
    obtain ⟨value, hvalue, heq⟩ := Option.map_eq_some_iff.mp hfound
    cases heq
    exact hvalue
  · intro h
    cases hheader : header? text with
    | none =>
        have hnone := List.findSome?_eq_none_iff.mp hheader kind (mem_all kind)
        rw [h] at hnone
        cases hnone
    | some found =>
        obtain ⟨found, _, hfound⟩ := List.exists_of_findSome?_eq_some hheader
        obtain ⟨value, hvalue, rfl⟩ := Option.map_eq_some_iff.mp hfound
        obtain rfl := eq_of_inline? hvalue h
        rw [hvalue] at h
        cases h
        rfl

/-! ## Headers as the reader sees them -/

theorem header?_bare (h : IsBareHeader kind line) : header? (trim line) = some (kind, []) := by
  rw [header?_eq_some_iff, inline?_eq_some_iff]
  obtain ⟨gap, hgap, h | h⟩ := h
  · exact ⟨gap, hgap, .inl ⟨h, rfl⟩⟩
  · exact ⟨gap, hgap, .inr ⟨[], h, rfl⟩⟩

theorem header?_filled (h : IsFilledHeader kind content line) :
    header? (trim line) = some (kind, content) := by
  rw [header?_eq_some_iff, inline?_eq_some_iff]
  obtain ⟨hcontent, gap, before, hgap, hbefore, h⟩ := h
  have htrim := hcontent.trim_eq hbefore Blanks.nil
  rw [List.append_nil] at htrim
  exact ⟨gap, hgap, .inr ⟨before ++ content, h, htrim.symm⟩⟩

/-- The reader takes exactly these lines for headers. -/
theorem isHeaderLine_iff : IsHeaderLine line ↔ (header? (trim line)).isSome = true := by
  constructor
  · rintro ⟨kind, h | ⟨content, h⟩⟩
    · rw [header?_bare h]
      rfl
    · rw [header?_filled h]
      rfl
  · intro h
    obtain ⟨⟨kind, inline⟩, hheader⟩ := Option.isSome_iff_exists.mp h
    obtain ⟨gap, hgap, ⟨h, _⟩ | ⟨written, h, _⟩⟩ :=
      inline?_eq_some_iff.mp (header?_eq_some_iff.mp hheader)
    · exact ⟨kind, .inl ⟨gap, hgap, .inl h⟩⟩
    · have htrimmed : Trimmed (trim line) := by
        apply trimmed_trim
        rw [h]
        exact List.append_ne_nil_of_right_ne_nil _ (List.cons_ne_nil _ _)
      rw [h, List.append_cons] at htrimmed
      by_cases hnil : trim written = []
      · exact ⟨kind, .inl ⟨gap, hgap, .inr (htrimmed.eq_nil_of_trim hnil ▸ h)⟩⟩
      · obtain ⟨before, hbefore, hwritten⟩ := htrimmed.right_part.resolve_left hnil
        refine ⟨kind, .inr ⟨trim written, trimmed_trim hnil, gap, before, hgap, hbefore, ?_⟩⟩
        rw [← hwritten]
        exact h

end LossyConsensus.Source
