/-
# What is read is in scope

A reader that knows the declared names lets no other name through, and it builds
no node without a meaning.  The names that the rules of a protocol may use are
the parameters it declares; the sections on the channel and the roles add
settings of their own, under names that no rule can use.
-/

import LossyConsensus.Proofs.Protocol.Scope
import LossyConsensus.Proofs.Source.Block
import LossyConsensus.Source.Protocol

namespace LossyConsensus.Source

open LossyConsensus.Protocol LossyConsensus.Text

variable {v : Vocabulary} {names : List String}

/-! ## Expressions and predicates -/

theorem scoped_readAggregate {how : Aggregation} {argument : List Char} {expr : Expr Float}
    (h : readAggregate v how argument = .ok expr) : expr.Scoped names := by
  rw [readAggregate] at h
  split at h
  · cases h
    exact .aggregate how false
  · split at h
    · cases h
      exact .aggregate how true
    · split at h
      · obtain ⟨senders, _, h⟩ := bind_eq_ok.mp h
        obtain rfl := pure_eq_ok.mp h
        exact .aggregateFrom how senders _
      · cases h

/-- A word that is read as a parameter is one of the declared names. -/
theorem scoped_readOperand (hdeclared : v.declared = some names) {text : List Char}
    {expr : Expr Float} (h : readOperand v text = .ok expr) : expr.Scoped names := by
  simp only [readOperand] at h
  split at h
  · split at h
    · exact scoped_readAggregate h
    · cases h
  · split at h
    · split at h
      · split at h
        · obtain ⟨sender, _, rfl⟩ := map_eq_ok.mp h
          exact .valueFrom sender
        · cases h
      · cases h
    · split at h
      · cases h
        exact .other
      · split at h
        · cases h
          exact .other
        · cases h
      · split at h
        · cases h
          exact .own
        · split at h
          · cases h
          · split at h
            · cases h
            · next hknown =>
              cases h
              refine .parameter ?_
              simpa [hdeclared] using hknown

theorem scoped_readExpr (hdeclared : v.declared = some names) {source : List Char}
    {expr : Expr Float} (h : readExpr v source = .ok expr) : expr.Scoped names := by
  fun_induction readExpr v source generalizing expr
  case case1 => cases h
  case case2 =>
    cases h
    exact .literal _
  case case3 ih => exact ih h
  case case4 => cases h
  case case5 ihleft ihright =>
    obtain ⟨left, hleft, h⟩ := bind_eq_ok.mp h
    obtain ⟨right, hright, h⟩ := bind_eq_ok.mp h
    obtain rfl := pure_eq_ok.mp h
    exact .binary (ihleft hleft) (ihright hright)
  case case6 ih =>
    obtain ⟨operand, hoperand, h⟩ := bind_eq_ok.mp h
    obtain rfl := pure_eq_ok.mp h
    exact .binary (.literal _) (ih hoperand)
  case case7 => exact scoped_readOperand hdeclared h

theorem scoped_readAtom {text : List Char} {predicate : Predicate Float}
    (h : readAtom v text = .ok predicate) : predicate.Scoped names := by
  simp only [readAtom] at h
  split at h
  · cases h
    exact .receivedAny
  · split at h
    · cases h
      exact .receivedAll
    · split at h
      · cases h
        exact .receivedMajority
      · split at h
        · cases h
          exact .isLeader
        · split at h
          · split at h
            · cases h
              exact .receivedDiff _
            · cases h
          · split at h
            · split at h
              · obtain ⟨count, _, h⟩ := bind_eq_ok.mp h
                obtain rfl := pure_eq_ok.mp h
                exact .receivedAtLeast _
              · cases h
            · split at h
              · split at h
                · obtain ⟨sender, _, rfl⟩ := map_eq_ok.mp h
                  exact .receivedFrom sender
                · cases h
              · cases h

theorem scoped_readPredicate (hdeclared : v.declared = some names) {source : List Char}
    {predicate : Predicate Float} (h : readPredicate v source = .ok predicate) :
    predicate.Scoped names := by
  fun_induction readPredicate v source generalizing predicate
  case case1 => cases h
  case case2 ih => exact ih h
  case case3 ihleft ihright =>
    obtain ⟨left, hleft, h⟩ := bind_eq_ok.mp h
    obtain ⟨right, hright, h⟩ := bind_eq_ok.mp h
    obtain rfl := pure_eq_ok.mp h
    exact .disj (ihleft hleft) (ihright hright)
  case case4 ihleft ihright =>
    obtain ⟨left, hleft, h⟩ := bind_eq_ok.mp h
    obtain ⟨right, hright, h⟩ := bind_eq_ok.mp h
    obtain rfl := pure_eq_ok.mp h
    exact .conj (ihleft hleft) (ihright hright)
  case case5 ih =>
    obtain ⟨operand, hoperand, h⟩ := bind_eq_ok.mp h
    obtain rfl := pure_eq_ok.mp h
    exact .neg (ih hoperand)
  case case6 =>
    obtain ⟨left, hleft, h⟩ := bind_eq_ok.mp h
    obtain ⟨right, hright, h⟩ := bind_eq_ok.mp h
    obtain rfl := pure_eq_ok.mp h
    exact .compare (scoped_readExpr hdeclared hleft) (scoped_readExpr hdeclared hright)
  case case7 => exact scoped_readAtom h

/-! ## Rules -/

theorem SimpleRuleReads.scoped (hdeclared : v.declared = some names) {text : List Char}
    {rule : Rule Float} (h : SimpleRuleReads v text rule) : rule.Scoped names := by
  cases h with
  | ifDifferent _ _ hfirst hsecond =>
      exact .ifDifferent (scoped_readExpr hdeclared hfirst) (scoped_readExpr hdeclared hsecond)
  | assign _ _ _ hvalue => exact .assign (scoped_readExpr hdeclared hvalue)
  | combine _ _ _ => exact .combine _
  | value _ _ _ hvalue => exact .assign (scoped_readExpr hdeclared hvalue)

theorem LineReads.scoped (hdeclared : v.declared = some names) {source : List Char}
    {rule : Rule Float} (h : LineReads v source rule) : rule.Scoped names := by
  induction h with
  | plain _ _ hrule => exact (simpleRuleReads_of_readSimpleRule hrule).scoped hdeclared
  | onlyIf _ hpredicate _ _ ih => exact .onlyIf (scoped_readPredicate hdeclared hpredicate) ih
  | choose _ hpredicate _ _ _ ihyes ihno =>
      exact .choose (scoped_readPredicate hdeclared hpredicate) ihyes ihno

theorem scoped_readRule (hdeclared : v.declared = some names) {source : List Char}
    {rule : Rule Float} (h : readRule v source = .ok rule) : rule.Scoped names :=
  (lineReads_of_readRule h).scoped hdeclared

/-! ## Phases -/

/-- The rule that a block gives is in scope, whichever lines the block takes. -/
theorem BlockReads.scoped (hdeclared : v.declared = some names) {text : List Char}
    {following left : List (List Char)} {rule : Rule Float}
    (h : BlockReads v text following rule left) : rule.Scoped names := by
  induction h with
  | single _ _ hrule => exact scoped_readRule hdeclared hrule
  | onlyIf _ hpredicate _ _ _ ih => exact .onlyIf (scoped_readPredicate hdeclared hpredicate) ih
  | ifElse _ hpredicate _ _ _ _ ihyes ihno =>
      exact .choose (scoped_readPredicate hdeclared hpredicate) ihyes ihno
  | elseIf _ hpredicate _ _ _ _ _ ihyes ihno =>
      exact .choose (scoped_readPredicate hdeclared hpredicate) ihyes ihno

/-- The rule of every phase is in scope. -/
theorem PhasesRead.scoped (hdeclared : v.declared = some names) {ended : Bool}
    {written : List (List Char)} {phases : List (Phase Float)}
    (h : PhasesRead v ended written phases) : ∀ phase ∈ phases, phase.rule.Scoped names := by
  induction h with
  | nil => exact List.forall_mem_nil _
  | plain _ _ hblock _ ih => exact List.forall_mem_cons.mpr ⟨hblock.scoped hdeclared, ih⟩
  | onHeaderLine _ _ _ hrule _ ih =>
      exact List.forall_mem_cons.mpr ⟨scoped_readRule hdeclared hrule, ih⟩
  | onNextLine _ _ _ _ hblock _ ih =>
      exact List.forall_mem_cons.mpr ⟨hblock.scoped hdeclared, ih⟩

theorem scoped_readPhases (hdeclared : v.declared = some names) {ended : Bool}
    {lines : List Line} {phases : List (Phase Float)}
    (h : readPhases v ended lines = .ok phases) : ∀ phase ∈ phases, phase.rule.Scoped names :=
  (phasesRead_of_readPhases h).scoped hdeclared

end LossyConsensus.Source
