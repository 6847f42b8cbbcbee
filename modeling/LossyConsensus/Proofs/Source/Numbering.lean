/-
# Readers and line numbers

The number of a line goes into the errors that refuse the line and into nothing
else: what a section's content is read as depends on the texts of its lines.
-/

import LossyConsensus.Proofs.Source.Block
import LossyConsensus.Source.Protocol

namespace LossyConsensus.Source

open LossyConsensus.Protocol LossyConsensus.Text

/-- The second computation succeeds with whatever the first one succeeds
with. -/
def Preserves {α : Type} (first second : Except ParseError α) : Prop :=
  ∀ result, first = .ok result → second = .ok result

namespace Preserves

variable {α β : Type} {first second : Except ParseError α}

theorem refl (computation : Except ParseError α) : Preserves computation computation :=
  fun _ h => h

theorem refuse {number : Nat} {fault : ProtocolFault} : Preserves (refuse number fault) second := by
  intro result h
  cases h

theorem refuse_bind {number : Nat} {fault : ProtocolFault} {next : β → Except ParseError α} :
    Preserves (Source.refuse number fault >>= next) second := by
  intro result h
  cases h

theorem ite {condition : Prop} [Decidable condition] {first' second' : Except ParseError α}
    (hyes : Preserves first second) (hno : Preserves first' second') :
    Preserves (if condition then first else first') (if condition then second else second') := by
  by_cases h : condition
  · rwa [if_pos h, if_pos h]
  · rwa [if_neg h, if_neg h]

theorem bind {next next' : α → Except ParseError β} (h : Preserves first second)
    (hnext : ∀ value, Preserves (next value) (next' value)) :
    Preserves (first >>= next) (second >>= next') := by
  intro result hresult
  obtain ⟨value, hvalue, hrest⟩ := bind_eq_ok.mp hresult
  exact bind_eq_ok.mpr ⟨value, h value hvalue, hnext value result hrest⟩

/-- The line that an error of a rule is tied to is no part of the rule. -/
theorem onLine (number other : Nat) (rule : Except RuleError α) :
    Preserves (onLine number rule) (onLine other rule) :=
  fun _ h => mapError_eq_ok.mpr (mapError_eq_ok.mp h)

end Preserves

variable {processes : Nat} {text : List Char} {lines lines' : List Line}

/-! ## Single lines -/

section Lines

variable (number other : Nat)

theorem readName_renumber : Preserves (readName (number, text)) (readName (other, text)) := by
  simp only [readName]
  split
  · exact .ite (.refl _) .refuse
  · exact .refuse

theorem readParameter_renumber :
    Preserves (readParameter (number, text)) (readParameter (other, text)) := by
  simp only [readParameter]
  split
  · exact .refuse
  · split
    · exact .refl _
    · exact .refuse

theorem readChannel_renumber :
    Preserves (readChannel processes (number, text)) (readChannel processes (other, text)) := by
  simp only [readChannel]
  refine .ite (.refl _) ?_
  split
  · exact .refuse
  · exact .ite (.refl _) (.ite (.ite .refuse (.refl _)) .refuse)

theorem readLeader_renumber :
    Preserves (readLeader processes (number, text)) (readLeader processes (other, text)) := by
  simp only [readLeader]
  split
  · exact .refuse
  · exact .bind (.refl _) fun _ => .ite (.refl _) .refuse

theorem readModel_renumber (process : Option Int) :
    Preserves (readModel process number text) (readModel process other text) := by
  simp only [readModel]
  refine .ite (.refl _) (.ite ?_ (.ite (.ite (.refl _) .refuse) .refuse))
  split
  · exact .refuse
  · exact .ite (.refl _) .refuse

theorem addMetric_renumber (metrics : Metrics) (word : List Char) :
    Preserves (addMetric number metrics word) (addMetric other metrics word) :=
  .ite (.refl _) (.ite (.refl _) .refuse)

end Lines

/-! ## Contents of sections -/

theorem exists_line_of_texts_eq (h : texts lines = texts lines') {number : Nat}
    {rest : List Line} (hlines : lines = (number, text) :: rest) :
    ∃ other rest', lines' = (other, text) :: rest' ∧ texts rest = texts rest' := by
  subst hlines
  obtain ⟨other, rest', hlines', hrest⟩ := exists_of_texts_eq_cons h.symm
  exact ⟨other, rest', hlines', hrest.symm⟩

theorem eq_nil_of_texts_eq (h : texts lines = texts lines') (hlines : lines = []) :
    lines' = [] := by
  subst hlines
  exact List.map_eq_nil_iff.mp h.symm

/-- A fold over lines whose step does not look at their numbers. -/
theorem foldlM_renumber {σ : Type} {step : σ → Line → Except ParseError σ}
    (hstep : ∀ state number other text,
      Preserves (step state (number, text)) (step state (other, text)))
    (h : texts lines = texts lines') (state : σ) :
    Preserves (lines.foldlM step state) (lines'.foldlM step state) := by
  induction lines generalizing lines' state with
  | nil =>
      rw [eq_nil_of_texts_eq h rfl]
      exact .refl _
  | cons line rest ih =>
      obtain ⟨other, rest', rfl, hrest⟩ := exists_line_of_texts_eq h rfl
      rw [List.foldlM_cons, List.foldlM_cons]
      exact .bind (hstep state _ _ _) fun next => ih hrest next

theorem readValues_renumber (header header' : Nat) (h : texts lines = texts lines') :
    Preserves (readValues processes header lines) (readValues processes header' lines') := by
  rw [readValues.eq_def]
  split
  · obtain ⟨other, rest, rfl, hrest⟩ := exists_line_of_texts_eq h rfl
    obtain rfl := eq_nil_of_texts_eq hrest rfl
    simp only [readValues]
    split
    · exact .refuse
    · split
      · exact .refuse
      · exact .ite .refuse (.refl _)
  · exact .refuse

theorem readModels_renumber (h : texts lines = texts lines') (models : List ModelSpec) :
    Preserves (readModels processes models lines) (readModels processes models lines') := by
  induction lines generalizing lines' models with
  | nil =>
      rw [eq_nil_of_texts_eq h rfl]
      exact .refl _
  | cons line rest ih =>
      obtain ⟨number, text⟩ := line
      obtain ⟨other, rest', rfl, hrest⟩ := exists_line_of_texts_eq h rfl
      simp only [readModels]
      split
      · exact .bind (.refl _) fun _ => .ite
          (.bind (readModel_renumber number other _) fun _ => .ite .refuse_bind (ih hrest _))
          .refuse_bind
      · exact .bind (readModel_renumber number other none) fun _ => .ite .refuse_bind (ih hrest _)

theorem readMetrics_renumber (h : texts lines = texts lines') :
    Preserves (readMetrics lines) (readMetrics lines') := by
  refine .bind (foldlM_renumber ?_ h _) fun _ => .refl _
  intro metrics number other text
  dsimp only
  generalize metricWords [] text = words
  induction words generalizing metrics with
  | nil => exact .refl _
  | cons word words ih =>
      rw [List.foldlM_cons, List.foldlM_cons]
      exact .bind (addMetric_renumber number other metrics word) fun next => ih next

theorem readPhases_renumber (v : Vocabulary) (ended : Bool) (h : texts lines = texts lines') :
    Preserves (readPhases v ended lines) (readPhases v ended lines') := by
  intro phases hphases
  rw [readPhases_eq_ok_iff] at hphases ⊢
  rwa [← h]

/-- An initial rule is the same on another line. -/
theorem readInitialRule_renumber {v : Vocabulary} {header number : Nat} {rule : Expr Float}
    (header' : Nat) (h : texts lines = texts lines')
    (hread : readInitialRule v header lines = .ok (number, rule)) :
    ∃ other, readInitialRule v header' lines' = .ok (other, rule) := by
  rw [readInitialRule.eq_def] at hread
  split at hread
  · obtain ⟨other, rest, rfl, hrest⟩ := exists_line_of_texts_eq h rfl
    obtain rfl := eq_nil_of_texts_eq hrest rfl
    refine ⟨other, ?_⟩
    simp only [readInitialRule]
    split at hread
    · cases hread
    · obtain ⟨target, htarget, hread⟩ := bind_eq_ok.mp hread
      obtain ⟨found, hfound, hread⟩ := bind_eq_ok.mp hread
      cases hread
      exact bind_eq_ok.mpr ⟨target, Preserves.onLine _ _ _ _ htarget,
        bind_eq_ok.mpr ⟨rule, Preserves.onLine _ _ _ _ hfound, rfl⟩⟩
  · cases hread

end LossyConsensus.Source
