/-
# Distances between processes

How many edges lead from one process to another, said without a search: by
walks of at most so many edges.  The diameter of a graph is the least number
that suffices for every two processes.

A number of steps given by a formula is a distance where some edge lowers it as
long as the goal is not reached, which bounds the distance from above, and no
edge raises it by more than one, which bounds the distance from below.
-/

import LossyConsensus.Network.Message
import LossyConsensus.Proofs.Network.Flood

namespace LossyConsensus.Network

/-- A walk of at most `steps` edges from one node to another. -/
inductive Within (edge : Int → Int → Prop) : Nat → Int → Int → Prop
  | here (steps : Nat) (node : Int) : Within edge steps node node
  | step {steps : Nat} {first last next : Int} (hwalk : Within edge steps first last)
      (hedge : edge last next) : Within edge (steps + 1) first next

/-- The greatest distance among `count` processes: every two of them are within
it, and some two are not within any less. -/
def IsDiameter (edge : Int → Int → Prop) (count distance : Nat) : Prop :=
  (∀ first ∈ processIds count, ∀ last ∈ processIds count, Within edge distance first last) ∧
    ∃ first ∈ processIds count, ∃ last ∈ processIds count,
      ∀ fewer < distance, ¬ Within edge fewer first last

/-- Some process cannot reach another one. -/
def IsSplit (edge : Int → Int → Prop) (count : Nat) : Prop :=
  ∃ first ∈ processIds count, ∃ last ∈ processIds count, ∀ steps, ¬ Within edge steps first last

variable {edge : Int → Int → Prop} {steps : Nat} {first last next : Int}

/-! ## Walks -/

theorem Within.mono (h : Within edge steps first last) {more : Nat} (hle : steps ≤ more) :
    Within edge more first last := by
  induction h generalizing more with
  | here steps node => exact .here more node
  | step _ hedge ih =>
      obtain ⟨more, rfl⟩ := Nat.exists_eq_add_of_lt hle
      exact .step (ih (by omega)) hedge

theorem within_zero_iff : Within edge 0 first last ↔ first = last := by
  constructor
  · intro h
    cases h
    rfl
  · rintro rfl
    exact .here 0 first

theorem within_succ_iff : Within edge (steps + 1) first next ↔
    Within edge steps first next ∨ ∃ last, Within edge steps first last ∧ edge last next := by
  constructor
  · intro h
    cases h with
    | here => exact .inl (.here steps first)
    | step hwalk hedge => exact .inr ⟨_, hwalk, hedge⟩
  · rintro (h | ⟨last, hwalk, hedge⟩)
    · exact h.mono (Nat.le_succ steps)
    · exact .step hwalk hedge

/-- A walk may begin with an edge. -/
theorem Within.cons (hedge : edge first last) (h : Within edge steps last next) :
    Within edge (steps + 1) first next := by
  induction h with
  | here steps node => exact .step (.here steps first) hedge
  | step _ hlast ih => exact .step (ih hedge) hlast

/-! ## Counted steps -/

/-- A number for a goal and a node that tells how many steps lead from the goal to
the node, and back: none where the node is the goal, fewer at some neighbour of
any other node, and at most one more at any neighbour. -/
structure CountsSteps (edge : Int → Int → Prop) (count : Nat) (between : Int → Int → Nat) :
    Prop where
  self : ∀ goal, between goal goal = 0
  closer : ∀ goal ∈ processIds count, ∀ node ∈ processIds count, node ≠ goal →
    ∃ next ∈ processIds count, edge node next ∧ between goal next < between goal node
  rises : ∀ goal ∈ processIds count, ∀ node ∈ processIds count, ∀ next, edge node next →
    next ∈ processIds count ∧ between goal next ≤ between goal node + 1

section Counted

variable {count : Nat} {between : Int → Int → Nat}

/-- So many steps lead to the goal: each goes on to a neighbour that is closer. -/
theorem CountsSteps.within (h : CountsSteps edge count between) (hfirst : first ∈ processIds count)
    (hlast : last ∈ processIds count) : Within edge (between last first) first last := by
  induction hbound : between last first using Nat.strongRecOn generalizing first with
  | ind bound ih =>
      by_cases hgoal : first = last
      · subst hgoal
        exact .here bound first
      · obtain ⟨next, hnext, hedge, hcloser⟩ := h.closer last hlast first hfirst hgoal
        have hwalk := ih (between last next) (hbound ▸ hcloser) hnext rfl
        exact (Within.cons hedge hwalk).mono (by omega)

/-- No walk is shorter: each of its edges adds one step at most. -/
theorem CountsSteps.le_of_within (h : CountsSteps edge count between)
    (hfirst : first ∈ processIds count) (hwalk : Within edge steps first last) :
    last ∈ processIds count ∧ between first last ≤ steps := by
  induction hwalk with
  | here steps node =>
      rw [h.self]
      exact ⟨hfirst, Nat.zero_le steps⟩
  | step _ hedge ih =>
      obtain ⟨hmem, hle⟩ := ih hfirst
      obtain ⟨hnext, hrises⟩ := h.rises _ hfirst _ hmem _ hedge
      exact ⟨hnext, by omega⟩

/-- The diameter is what no number of steps exceeds and some one reaches. -/
theorem CountsSteps.isDiameter (h : CountsSteps edge count between) {distance : Nat}
    (hle : ∀ goal ∈ processIds count, ∀ node ∈ processIds count, between goal node ≤ distance)
    (hfirst : first ∈ processIds count) (hlast : last ∈ processIds count)
    (hfar : distance ≤ between first last) : IsDiameter edge count distance := by
  refine ⟨?_, first, hfirst, last, hlast, ?_⟩
  · intro node hnode goal hgoal
    exact (h.within hnode hgoal).mono (hle goal hgoal node hnode)
  · intro fewer hfewer hwalk
    have := (h.le_of_within hfirst hwalk).2
    omega

end Counted

end LossyConsensus.Network
