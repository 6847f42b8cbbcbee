/-
# Outlines

To the readers of sections the lines after the first two are some lines before
any header, and then sections, each with its lines of content.  How the lines
are numbered, and whether content stands on the line of its header or below it,
is not part of this outline.

Two neighbouring sections may change places where one loop reads both and
neither looks at the other.  A loop over sections gets through one outline as it
does through the other.
-/

import LossyConsensus.Proofs.Source.Block
import LossyConsensus.Source.Header

namespace LossyConsensus.Source

open LossyConsensus.Text

/-- A section by its kind and the texts of its content. -/
abbrev SectionText := Section × List (List Char)

/-- The texts before the first header, and the sections from there on. -/
def outline : List (List Char) → List (List Char) × List SectionText
  | [] => ([], [])
  | text :: rest =>
      match header? text with
      | none => (text :: (outline rest).1, (outline rest).2)
      | some (kind, inline) =>
          ([], (kind, (if inline.isEmpty then [] else [inline]) ++ (outline rest).1) ::
            (outline rest).2)

variable {text inline : List Char} {rest : List (List Char)} {kind : Section}
  {body : List (List Char)} {sections sections' : List SectionText}
  {lines lines' : List Line} {expected : List Section} {part : Part}

theorem outline_cons_of_header (h : header? text = some (kind, inline)) :
    outline (text :: rest) =
      ([], (kind, (if inline.isEmpty then [] else [inline]) ++ (outline rest).1) ::
        (outline rest).2) := by
  rw [outline, h]

theorem outline_cons_of_plain (h : header? text = none) :
    outline (text :: rest) = (text :: (outline rest).1, (outline rest).2) := by
  rw [outline, h]

/-- Lines without a header stand before the sections. -/
theorem outline_append_of_plain {before : List (List Char)}
    (h : ∀ text ∈ before, header? text = none) (after : List (List Char)) :
    outline (before ++ after) = (before ++ (outline after).1, (outline after).2) := by
  induction before with
  | nil => rfl
  | cons text before ih =>
      rw [List.forall_mem_cons] at h
      rw [List.cons_append, outline_cons_of_plain h.1, ih h.2, List.cons_append]

/-- Sections after some lines follow the sections among them. -/
theorem outline_append {before after : List (List Char)} (h : (outline after).1 = []) :
    outline (before ++ after) = ((outline before).1, (outline before).2 ++ (outline after).2) := by
  induction before with
  | nil => exact Prod.ext h rfl
  | cons text before ih =>
      rw [List.cons_append]
      cases hheader : header? text with
      | none => rw [outline_cons_of_plain hheader, outline_cons_of_plain hheader, ih]
      | some found =>
          rw [outline_cons_of_header hheader, outline_cons_of_header hheader, ih]
          rfl

/-! ## The section at the front -/

theorem lead_eq (lines : List Line) :
    (outline (texts lines)).1 = texts (lines.takeWhile fun line => !isHeader line) := by
  induction lines with
  | nil => rfl
  | cons line lines ih =>
      obtain ⟨number, text⟩ := line
      rw [texts, List.map_cons, ← texts, List.takeWhile_cons]
      cases hheader : header? text with
      | none =>
          rw [outline_cons_of_plain hheader, if_pos (by simp [isHeader, hheader]), ih]
          rfl
      | some found =>
          have hline : isHeader (number, text) = true := by rw [isHeader, hheader]; rfl
          rw [outline_cons_of_header hheader, hline]
          rfl

/-- The lines from the first header on hold the sections. -/
theorem outline_dropWhile (lines : List Line) :
    outline (texts (lines.dropWhile fun line => !isHeader line)) =
      ([], (outline (texts lines)).2) := by
  induction lines with
  | nil => rfl
  | cons line lines ih =>
      obtain ⟨number, text⟩ := line
      rw [List.dropWhile_cons]
      cases hheader : header? text with
      | none =>
          rw [if_pos (by simp [isHeader, hheader]), ih, texts, texts, List.map_cons,
            outline_cons_of_plain hheader]
      | some found =>
          have hline : isHeader (number, text) = true := by rw [isHeader, hheader]; rfl
          rw [hline, if_neg (by simp), texts, List.map_cons, outline_cons_of_header hheader]

/-- What is taken from the front of the lines is the first section of their
outline. -/
theorem outline_of_part? (h : part? expected lines = some part) :
    part.kind ∈ expected ∧
      outline (texts lines) =
        ([], (part.kind, texts part.body) :: (outline (texts part.rest)).2) ∧
      (outline (texts part.rest)).1 = [] := by
  simp only [part?] at h
  split at h
  · cases h
  · next number text rest =>
    split at h
    · cases h
    · next kind inline hheader =>
      split at h
      · next hexpected =>
        cases h
        refine ⟨by simpa using hexpected, ?_, by rw [outline_dropWhile]⟩
        rw [texts, List.map_cons, ← texts, outline_cons_of_header hheader, outline_dropWhile,
          lead_eq]
        cases inline <;> rfl
      · cases h

/-- The first section of an outline without other lines before it is taken,
when it is expected. -/
theorem exists_part? (h : outline (texts lines) = ([], (kind, body) :: sections))
    (hexpected : kind ∈ expected) :
    ∃ part, part? expected lines = some part ∧ part.kind = kind ∧ texts part.body = body ∧
      outline (texts part.rest) = ([], sections) := by
  cases lines with
  | nil => cases h
  | cons line rest =>
      obtain ⟨number, text⟩ := line
      rw [texts, List.map_cons, ← texts] at h
      cases hheader : header? text with
      | none =>
          rw [outline_cons_of_plain hheader] at h
          cases h
      | some found =>
          obtain ⟨found, inline⟩ := found
          rw [outline_cons_of_header hheader] at h
          cases h
          have hcontains : expected.contains kind = true := by simpa using hexpected
          refine ⟨_, by rw [part?, hheader]; exact if_pos hcontains, rfl, ?_,
            outline_dropWhile rest⟩
          rw [lead_eq]
          cases inline <;> rfl

theorem part?_eq_none_iff : part? expected lines = none ↔
    ∀ kind body sections, outline (texts lines) = ([], (kind, body) :: sections) →
      kind ∉ expected := by
  constructor
  · intro h kind body sections houtline hexpected
    obtain ⟨part, hpart, _⟩ := exists_part? houtline hexpected
    rw [h] at hpart
    cases hpart
  · intro h
    cases hpart : part? expected lines with
    | none => rfl
    | some part =>
        obtain ⟨hexpected, houtline, _⟩ := outline_of_part? hpart
        exact absurd hexpected (h _ _ _ houtline)

/-! ## Sections that may change places -/

/-- The kinds of sections that may stand in either order. -/
def swappable : List (Section × Section) :=
  [(.parameters, .initialValues), (.initialValues, .parameters), (.parameters, .initial),
    (.initial, .parameters), (.channel, .roles), (.roles, .channel)]

/-- Two kinds of sections that may stand in either order. -/
def Swappable (first second : Section) : Prop :=
  (first, second) ∈ swappable

instance (first second : Section) : Decidable (Swappable first second) :=
  inferInstanceAs (Decidable ((first, second) ∈ swappable))

theorem Swappable.symm {first second : Section} (h : Swappable first second) :
    Swappable second first := by
  have hall : ∀ pair ∈ swappable, (pair.2, pair.1) ∈ swappable := by decide
  exact hall _ h

/-- The same sections, but for two neighbours that may have changed places. -/
inductive Rearranged : List SectionText → List SectionText → Prop
  | same (sections : List SectionText) : Rearranged sections sections
  | cons (first : SectionText) {sections sections' : List SectionText}
      (h : Rearranged sections sections') : Rearranged (first :: sections) (first :: sections')
  | swap {first second : SectionText} (h : Swappable first.1 second.1)
      (sections : List SectionText) :
      Rearranged (first :: second :: sections) (second :: first :: sections)

theorem Rearranged.symm (h : Rearranged sections sections') : Rearranged sections' sections := by
  induction h with
  | same sections => exact .same sections
  | cons first _ ih => exact .cons first ih
  | swap h sections => exact .swap h.symm sections

/-- The first section stays at the front or changes places with the second. -/
theorem Rearranged.cons_cases {first : SectionText}
    (h : Rearranged (first :: sections) sections') :
    (∃ others, sections' = first :: others ∧ Rearranged sections others) ∨
      ∃ second others, sections = second :: others ∧ sections' = second :: first :: others ∧
        Swappable first.1 second.1 := by
  cases h with
  | same => exact .inl ⟨sections, rfl, .same sections⟩
  | cons _ h => exact .inl ⟨_, rfl, h⟩
  | swap h others => exact .inr ⟨_, others, rfl, rfl, h⟩

theorem Rearranged.append_left (before : List SectionText) (h : Rearranged sections sections') :
    Rearranged (before ++ sections) (before ++ sections') := by
  induction before with
  | nil => exact h
  | cons first before ih => exact .cons first ih

/-- Lines with the same texts before the first header and with sections that
are the same but for two neighbours. -/
structure Relaid (lines lines' : List Line) : Prop where
  lead : (outline (texts lines)).1 = (outline (texts lines')).1
  sections : Rearranged (outline (texts lines)).2 (outline (texts lines')).2

theorem Relaid.symm (h : Relaid lines lines') : Relaid lines' lines :=
  ⟨h.lead.symm, h.sections.symm⟩

/-- Lines with the same texts say the same. -/
theorem Relaid.of_texts_eq (h : texts lines = texts lines') : Relaid lines lines' := by
  refine ⟨by rw [h], ?_⟩
  rw [h]
  exact .same _

/-- No lines are left in one of the texts only. -/
theorem Relaid.eq_nil (h : Relaid lines lines') (hlines : lines = []) : lines' = [] := by
  subst hlines
  obtain ⟨hlead, hsections⟩ := h
  cases lines' with
  | nil => rfl
  | cons line rest =>
      exfalso
      rw [texts, texts, List.map_nil, List.map_cons] at hlead hsections
      cases hheader : header? line.2 with
      | none =>
          rw [outline_cons_of_plain hheader] at hlead
          cases hlead
      | some found =>
          rw [outline_cons_of_header hheader] at hsections
          cases hsections

/-- A reader expects both of two swappable sections or neither. -/
def ExpectsTogether (expected : List Section) : Prop :=
  ∀ first second, Swappable first second → first ∈ expected → second ∈ expected

/-- The section at the front of one text stands at the front of the other too, or
behind one that it may change places with. -/
theorem Relaid.outline_cases {first : SectionText} (h : Relaid lines lines')
    (houtline : outline (texts lines) = ([], first :: sections)) :
    (∃ others, outline (texts lines') = ([], first :: others) ∧ Rearranged sections others) ∨
      ∃ second others, sections = second :: others ∧
        outline (texts lines') = ([], second :: first :: others) ∧ Swappable first.1 second.1 := by
  obtain ⟨hlead, hsections⟩ := h
  rw [houtline] at hlead hsections
  rcases hsections.cons_cases with ⟨others, heq, hothers⟩ | ⟨second, others, heq, heq', hswap⟩
  · exact .inl ⟨others, Prod.ext hlead.symm heq, hothers⟩
  · exact .inr ⟨second, others, heq, Prod.ext hlead.symm heq', hswap⟩

theorem Relaid.of_outlines (h : outline (texts lines) = ([], sections))
    (h' : outline (texts lines') = ([], sections')) (hsections : Rearranged sections sections') :
    Relaid lines lines' := by
  constructor
  · rw [h, h']
  · rw [h, h']
    exact hsections

/-- Where no expected section stands at the front of a text, none does at the
front of the other. -/
theorem Relaid.part?_eq_none (htogether : ExpectsTogether expected) (h : Relaid lines lines')
    (hnone : part? expected lines = none) : part? expected lines' = none := by
  rw [part?_eq_none_iff] at hnone ⊢
  intro kind body sections houtline hexpected
  rcases h.symm.outline_cases houtline with ⟨others, heq, _⟩ | ⟨second, others, _, heq, hswap⟩
  · exact hnone kind body others heq hexpected
  · exact hnone second.1 second.2 _ heq (htogether _ _ hswap hexpected)

/-- A reader of one section that no other may change places with. -/
theorem Relaid.exists_part? (halone : ∀ first second, Swappable first second → first ∉ expected)
    (h : Relaid lines lines') (hpart : part? expected lines = some part) :
    ∃ part', part? expected lines' = some part' ∧ part'.kind = part.kind ∧
      texts part.body = texts part'.body ∧ Relaid part.rest part'.rest := by
  obtain ⟨hexpected, houtline, hrest⟩ := outline_of_part? hpart
  rcases h.outline_cases houtline with ⟨others, heq, hothers⟩ | ⟨second, others, _, _, hswap⟩
  · obtain ⟨part', hpart', hkind, hbody, houtline'⟩ := Source.exists_part? heq hexpected
    exact ⟨part', hpart', hkind, hbody.symm, .of_outlines (Prod.ext hrest rfl) houtline' hothers⟩
  · exact absurd hexpected (halone _ _ hswap)

/-! ## Loops over sections -/

/-- A loop that takes a step for each expected section at the front goes from
one state to another and leaves lines over. -/
inductive Loops {σ : Type} (expected : List Section) (step : σ → Part → Except ParseError σ) :
    σ → List Line → σ → List Line → Prop
  | done {state lines} (hnone : part? expected lines = none) :
      Loops expected step state lines state lines
  | step {state next last : σ} {lines part left} (hpart : part? expected lines = some part)
      (hstep : step state part = .ok next) (hrest : Loops expected step next part.rest last left) :
      Loops expected step state lines last left

/-- The same section up to the numbers of its lines. -/
structure SamePart (part part' : Part) : Prop where
  kind : part.kind = part'.kind
  body : texts part.body = texts part'.body

/-- A step that does the same for the same section, and that takes two swappable
sections in either order, up to a relation between states. -/
structure Commutes {σ : Type} (expected : List Section) (step : σ → Part → Except ParseError σ)
    (alike : σ → σ → Prop) : Prop where
  together : ExpectsTogether expected
  trans : ∀ {first second third}, alike first second → alike second third → alike first third
  same : ∀ {state state' next part part'}, alike state state' → part.kind ∈ expected →
    SamePart part part' → step state part = .ok next →
      ∃ next', step state' part' = .ok next' ∧ alike next next'
  swap : ∀ {state next last first second}, first.kind ∈ expected →
    Swappable first.kind second.kind → step state first = .ok next → step next second = .ok last →
      ∃ next' last', step state second = .ok next' ∧ step next' first = .ok last' ∧
        alike last last'

/-- A section at the front of another text takes a like state on as it did. -/
theorem Commutes.exists_step {σ : Type} {step : σ → Part → Except ParseError σ}
    {alike : σ → σ → Prop} (hcommutes : Commutes expected step alike) {state state' next : σ}
    (hlike : alike state state') (hexpected : part.kind ∈ expected)
    (hstep : step state part = .ok next)
    (houtline : outline (texts lines') = ([], (part.kind, texts part.body) :: sections)) :
    ∃ part' next', part? expected lines' = some part' ∧ step state' part' = .ok next' ∧
      alike next next' ∧ outline (texts part'.rest) = ([], sections) := by
  obtain ⟨part', hpart', hkind, hbody, hrest⟩ := exists_part? houtline hexpected
  obtain ⟨next', hstep', hnext⟩ := hcommutes.same hlike hexpected ⟨hkind.symm, hbody.symm⟩ hstep
  exact ⟨part', next', hpart', hstep', hnext, hrest⟩

/-- A loop gets through rearranged sections to a like state. -/
theorem Commutes.loops {σ : Type} {step : σ → Part → Except ParseError σ} {alike : σ → σ → Prop}
    (hcommutes : Commutes expected step alike) {state state' last : σ} {left : List Line}
    (hloops : Loops expected step state lines last left) (hlike : alike state state')
    (hlines : Relaid lines lines') :
    ∃ last' left', Loops expected step state' lines' last' left' ∧ alike last last' ∧
      Relaid left left' := by
  -- Two sections that have changed places are taken together, so the induction is on their number.
  induction hlength : (outline (texts lines)).2.length using Nat.strongRecOn
    generalizing state state' lines lines' with
  | ind length ih =>
      cases hloops with
      | done hnone =>
          exact ⟨state', lines', .done (hlines.part?_eq_none hcommutes.together hnone), hlike,
            hlines⟩
      | @step _ next _ _ part _ hpart hstep hrest =>
          obtain ⟨hexpected, houtline, hlead⟩ := outline_of_part? hpart
          rw [houtline, List.length_cons] at hlength
          rcases hlines.outline_cases houtline with
            ⟨others, houtline', hothers⟩ | ⟨second, others, heq, houtline', hswap⟩
          · obtain ⟨part', next', hpart', hstep', hnext, hrest'⟩ :=
              hcommutes.exists_step hlike hexpected hstep houtline'
            have hrelaid : Relaid part.rest part'.rest :=
              .of_outlines (Prod.ext hlead rfl) hrest' hothers
            obtain ⟨last', left', hloops', hlast, hleft⟩ :=
              ih _ (by omega) hrest hnext hrelaid rfl
            exact ⟨last', left', .step hpart' hstep' hloops', hlast, hleft⟩
          · -- The loop takes both sections, so the two steps are done in the other order.
            have hsecond : second.1 ∈ expected := hcommutes.together _ _ hswap hexpected
            have houtline₂ : outline (texts part.rest) = ([], second :: others) :=
              Prod.ext hlead heq
            cases hrest with
            | done hnone => exact absurd hsecond (part?_eq_none_iff.mp hnone _ _ _ houtline₂)
            | @step _ last₂ _ _ part₂ _ hpart₂ hstep₂ hrest₂ =>
                obtain ⟨_, hfound, hlead₂⟩ := outline_of_part? hpart₂
                rw [houtline₂] at hfound
                obtain ⟨rfl, rfl⟩ : second = (part₂.kind, texts part₂.body) ∧
                    others = (outline (texts part₂.rest)).2 := by
                  simpa [Prod.ext_iff] using hfound
                obtain ⟨swapped, end', hfirst, hsecond', hend⟩ :=
                  hcommutes.swap hexpected hswap hstep hstep₂
                obtain ⟨part₂', next', hpart₂', hstep', hnext, hrest₂'⟩ :=
                  hcommutes.exists_step hlike hsecond hfirst houtline'
                obtain ⟨part', last', hpart', hstep₂', hlast, hrest'⟩ :=
                  hcommutes.exists_step hnext hexpected hsecond' hrest₂'
                have hrelaid : Relaid part₂.rest part'.rest :=
                  .of_outlines (Prod.ext hlead₂ rfl) hrest' (.same _)
                rw [heq, List.length_cons] at hlength
                obtain ⟨final', left', hloops', hfinal, hleft⟩ :=
                  ih _ (by omega) hrest₂ (hcommutes.trans hend hlast) hrelaid rfl
                exact ⟨final', left', .step hpart₂' hstep' (.step hpart' hstep₂' hloops'), hfinal,
                  hleft⟩

end LossyConsensus.Source
