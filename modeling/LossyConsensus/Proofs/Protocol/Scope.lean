/-
# Names in scope

A rule is in scope of some names if it refers to no other parameter and holds
no node that has no meaning.  In a view that gives all of the names a value such
a rule can fail only for what a process happens to have received, or for a
divisor that happens to be zero, and the failure can be pinned on a part of the
rule that the evaluation reached.
-/

import LossyConsensus.Proofs.Except
import LossyConsensus.Protocol.Evaluate
import LossyConsensus.Protocol.Map
import LossyConsensus.Protocol.Phase

namespace LossyConsensus.Protocol

variable {R S : Type}

/-! ## Scope -/

/-- An expression that refers to the given names only and has a meaning. -/
inductive Expr.Scoped (names : List String) : Expr R → Prop
  | own : Scoped names .own
  | parameter {name : String} (hname : name ∈ names) : Scoped names (.parameter name)
  | literal (value : R) : Scoped names (.literal value)
  | binary {op : Operator} {left right : Expr R} (hleft : Scoped names left)
      (hright : Scoped names right) : Scoped names (.binary op left right)
  | aggregate (how : Aggregation) (withOwn : Bool) : Scoped names (.aggregate how withOwn)
  | aggregateFrom (how : Aggregation) (senders : List Int) (withOwn : Bool) :
      Scoped names (.aggregateFrom how senders withOwn)
  | other : Scoped names .other
  | valueFrom (sender : Int) : Scoped names (.valueFrom sender)

/-- A predicate all of whose expressions are in scope and that has a truth
value. -/
inductive Predicate.Scoped (names : List String) : Predicate R → Prop
  | receivedAny : Scoped names .receivedAny
  | receivedAll : Scoped names .receivedAll
  | receivedAtLeast (count : Int) : Scoped names (.receivedAtLeast count)
  | receivedMajority : Scoped names .receivedMajority
  | receivedDiff (name : String) : Scoped names (.receivedDiff name)
  | receivedFrom (sender : Int) : Scoped names (.receivedFrom sender)
  | isLeader : Scoped names .isLeader
  | compare {op : Relation} {left right : Expr R} (hleft : left.Scoped names)
      (hright : right.Scoped names) : Scoped names (.compare op left right)
  | conj {left right : Predicate R} (hleft : Scoped names left) (hright : Scoped names right) :
      Scoped names (.conj left right)
  | disj {left right : Predicate R} (hleft : Scoped names left) (hright : Scoped names right) :
      Scoped names (.disj left right)
  | neg {operand : Predicate R} (hoperand : Scoped names operand) : Scoped names (.neg operand)
  | constant (value : Bool) : Scoped names (.constant value)

/-- A rule all of whose parts are in scope. -/
inductive Rule.Scoped (names : List String) : Rule R → Prop
  | assign {target : Target} {value : Expr R} (hvalue : value.Scoped names) :
      Scoped names (.assign target value)
  | combine (how : Combination) : Scoped names (.combine how)
  | ifDifferent {different same : Expr R} (hdifferent : different.Scoped names)
      (hsame : same.Scoped names) : Scoped names (.ifDifferent different same)
  | onlyIf {condition : Predicate R} {rule : Rule R} (hcondition : condition.Scoped names)
      (hrule : Scoped names rule) : Scoped names (.onlyIf condition rule)
  | choose {condition : Predicate R} {yes no : Rule R} (hcondition : condition.Scoped names)
      (hyes : Scoped names yes) (hno : Scoped names no) : Scoped names (.choose condition yes no)

/-! Other scalars do not change what a rule refers to. -/

theorem Expr.Scoped.map {names : List String} {expr : Expr R} (h : expr.Scoped names)
    (f : R → S) : (expr.map f).Scoped names := by
  induction h with
  | own => exact .own
  | parameter hname => exact .parameter hname
  | literal value => exact .literal (f value)
  | binary _ _ ihleft ihright => exact .binary ihleft ihright
  | aggregate how withOwn => exact .aggregate how withOwn
  | aggregateFrom how senders withOwn => exact .aggregateFrom how senders withOwn
  | other => exact .other
  | valueFrom sender => exact .valueFrom sender

theorem Predicate.Scoped.map {names : List String} {predicate : Predicate R}
    (h : predicate.Scoped names) (f : R → S) : (predicate.map f).Scoped names := by
  induction h with
  | receivedAny => exact .receivedAny
  | receivedAll => exact .receivedAll
  | receivedAtLeast count => exact .receivedAtLeast count
  | receivedMajority => exact .receivedMajority
  | receivedDiff name => exact .receivedDiff name
  | receivedFrom sender => exact .receivedFrom sender
  | isLeader => exact .isLeader
  | compare hleft hright => exact .compare (hleft.map f) (hright.map f)
  | conj _ _ ihleft ihright => exact .conj ihleft ihright
  | disj _ _ ihleft ihright => exact .disj ihleft ihright
  | neg _ ih => exact .neg ih
  | constant value => exact .constant value

theorem Rule.Scoped.map {names : List String} {rule : Rule R} (h : rule.Scoped names)
    (f : R → S) : (rule.map f).Scoped names := by
  induction h with
  | assign hvalue => exact .assign (hvalue.map f)
  | combine how => exact .combine how
  | ifDifferent hdifferent hsame => exact .ifDifferent (hdifferent.map f) (hsame.map f)
  | onlyIf hcondition _ ih => exact .onlyIf (hcondition.map f) ih
  | choose hcondition _ _ ihyes ihno => exact .choose (hcondition.map f) ihyes ihno

/-! ## Blame -/

variable [Scalar R]

/-- The part of an expression that fails in a view, and how: a divisor is zero;
no value is there to aggregate; not exactly one other value was received; or
nothing came from the sender asked for. -/
inductive Expr.Blames (view : View R) : Expr R → EvalError → Prop
  | zeroDivisor {left right : Expr R} {divisor : R} (hdivisor : right.eval view = .ok divisor)
      (hzero : Scalar.eq divisor Scalar.zero = true) :
      Blames view (.binary .div left right) .divisionByZero
  | left {op : Operator} {left right : Expr R} {error : EvalError} (h : Blames view left error) :
      Blames view (.binary op left right) error
  | right {op : Operator} {left right : Expr R} {error : EvalError}
      (h : Blames view right error) : Blames view (.binary op left right) error
  | nothingReceived {how : Aggregation} (hempty : view.received = []) :
      Blames view (.aggregate how false) (.emptyAggregate how)
  | nothingFrom {how : Aggregation} {senders : List Int}
      (hempty : view.receivedFrom senders = []) :
      Blames view (.aggregateFrom how senders false) (.emptyAggregate how)
  | nothingDiffers (hempty : view.differing = []) : Blames view .other .nothingDiffers
  | severalDiffer (hseveral : 2 ≤ (Scalar.distinct view.differing).length) :
      Blames view .other (.severalDiffer (Scalar.distinct view.differing).length)
  | noMessage {sender : Int} (habsent : ∀ message ∈ view.inbox, message.1 ≠ sender) :
      Blames view (.valueFrom sender) (.noMessageFrom sender view.id)

/-- The part of a predicate that fails in a view: one of its expressions, or a
question about the leader where there is none. -/
inductive Predicate.Blames (view : View R) : Predicate R → EvalError → Prop
  | noLeader (hleader : view.leader = none) : Blames view .isLeader .noLeader
  | compareLeft {op : Relation} {left right : Expr R} {error : EvalError}
      (h : left.Blames view error) : Blames view (.compare op left right) error
  | compareRight {op : Relation} {left right : Expr R} {error : EvalError}
      (h : right.Blames view error) : Blames view (.compare op left right) error
  | conjLeft {left right : Predicate R} {error : EvalError} (h : Blames view left error) :
      Blames view (.conj left right) error
  | conjRight {left right : Predicate R} {error : EvalError} (hleft : left.eval view = .ok true)
      (h : Blames view right error) : Blames view (.conj left right) error
  | disjLeft {left right : Predicate R} {error : EvalError} (h : Blames view left error) :
      Blames view (.disj left right) error
  | disjRight {left right : Predicate R} {error : EvalError} (hleft : left.eval view = .ok false)
      (h : Blames view right error) : Blames view (.disj left right) error
  | neg {operand : Predicate R} {error : EvalError} (h : Blames view operand error) :
      Blames view (.neg operand) error

/-- The part of a rule that fails in a view, on the branch that the view
takes. -/
inductive Rule.Blames (view : View R) : Rule R → EvalError → Prop
  | assign {target : Target} {value : Expr R} {error : EvalError} (h : value.Blames view error) :
      Blames view (.assign target value) error
  | different {different same : Expr R} {error : EvalError} (hdiffers : view.differing ≠ [])
      (h : different.Blames view error) : Blames view (.ifDifferent different same) error
  | same {different same : Expr R} {error : EvalError} (hdiffers : view.differing = [])
      (h : same.Blames view error) : Blames view (.ifDifferent different same) error
  | onlyIfCondition {condition : Predicate R} {rule : Rule R} {error : EvalError}
      (h : condition.Blames view error) : Blames view (.onlyIf condition rule) error
  | onlyIf {condition : Predicate R} {rule : Rule R} {error : EvalError}
      (hcondition : condition.eval view = .ok true) (h : Blames view rule error) :
      Blames view (.onlyIf condition rule) error
  | chooseCondition {condition : Predicate R} {yes no : Rule R} {error : EvalError}
      (h : condition.Blames view error) : Blames view (.choose condition yes no) error
  | yes {condition : Predicate R} {yes no : Rule R} {error : EvalError}
      (hcondition : condition.eval view = .ok true) (h : Blames view yes error) :
      Blames view (.choose condition yes no) error
  | no {condition : Predicate R} {yes no : Rule R} {error : EvalError}
      (hcondition : condition.eval view = .ok false) (h : Blames view no error) :
      Blames view (.choose condition yes no) error

/-- The errors that a text with all its names declared can run into. -/
def EvalError.isOrdinary : EvalError → Bool
  | .divisionByZero => true
  | .emptyAggregate _ => true
  | .nothingDiffers => true
  | .severalDiffer _ => true
  | .noMessageFrom _ _ => true
  | .noLeader => true
  | _ => false

theorem Expr.Blames.isOrdinary {view : View R} {expr : Expr R} {error : EvalError}
    (h : expr.Blames view error) : error.isOrdinary = true := by
  induction h with
  | zeroDivisor => rfl
  | left _ ih => exact ih
  | right _ ih => exact ih
  | nothingReceived => rfl
  | nothingFrom => rfl
  | nothingDiffers => rfl
  | severalDiffer => rfl
  | noMessage => rfl

theorem Predicate.Blames.isOrdinary {view : View R} {predicate : Predicate R} {error : EvalError}
    (h : predicate.Blames view error) : error.isOrdinary = true := by
  induction h with
  | noLeader => rfl
  | compareLeft h => exact h.isOrdinary
  | compareRight h => exact h.isOrdinary
  | conjLeft _ ih => exact ih
  | conjRight _ _ ih => exact ih
  | disjLeft _ ih => exact ih
  | disjRight _ _ ih => exact ih
  | neg _ ih => exact ih

theorem Rule.Blames.isOrdinary {view : View R} {rule : Rule R} {error : EvalError}
    (h : rule.Blames view error) : error.isOrdinary = true := by
  induction h with
  | assign h => exact h.isOrdinary
  | different _ h => exact h.isOrdinary
  | same _ h => exact h.isOrdinary
  | onlyIfCondition h => exact h.isOrdinary
  | onlyIf _ _ ih => exact ih
  | chooseCondition h => exact h.isOrdinary
  | yes _ _ ih => exact ih
  | no _ _ ih => exact ih

/-! ## Evaluation -/

/-- A view that gives a value to each of some names. -/
def View.Provides (view : View R) (names : List String) : Prop :=
  ∀ name ∈ names, (view.parameters.lookup name).isSome = true

theorem Aggregation.apply_eq_error {how : Aggregation} {values : List R} {error : EvalError}
    (h : how.apply values = .error error) : values = [] ∧ error = .emptyAggregate how := by
  cases values with
  | nil =>
      cases h
      exact ⟨rfl, rfl⟩
  | cons first rest => cases h

theorem Operator.apply_eq_error {op : Operator} {left right : R} {error : EvalError}
    (h : op.apply left right = .error error) :
    op = .div ∧ Scalar.eq right Scalar.zero = true ∧ error = .divisionByZero := by
  cases op with
  | add => cases h
  | sub => cases h
  | mul => cases h
  | div =>
      rw [Operator.apply] at h
      split at h
      · next hzero =>
        cases h
        exact ⟨rfl, hzero, rfl⟩
      · cases h

/-- Keeping distinct values, one starts with what has been kept. -/
theorem length_le_foldl_distinct (values kept : List R) :
    kept.length ≤ (values.foldl (fun kept value =>
      if kept.any (Scalar.same value) then kept else kept ++ [value]) kept).length := by
  induction values generalizing kept with
  | nil => exact Nat.le_refl _
  | cons value rest ih =>
      rw [List.foldl_cons]
      split
      · exact ih kept
      · have hrest := ih (kept ++ [value])
        rw [List.length_append] at hrest
        exact Nat.le_trans (Nat.le_add_right _ _) hrest

theorem eq_nil_of_distinct_eq_nil {values : List R} (h : Scalar.distinct values = []) :
    values = [] := by
  cases values with
  | nil => rfl
  | cons value rest =>
      have hle := length_le_foldl_distinct rest [value]
      have hzero : (Scalar.distinct (value :: rest)).length = 0 := by rw [h, List.length_nil]
      rw [Scalar.distinct, List.foldl_cons] at hzero
      have hone : ([value] : List R).length ≤ 0 :=
        calc
          ([value] : List R).length ≤ _ := hle
          _ = 0 := hzero
      cases hone

theorem View.other_eq_error {view : View R} {error : EvalError}
    (h : view.other = .error error) : Expr.Blames view .other error := by
  rw [View.other] at h
  split at h
  · next hempty =>
    cases h
    exact .nothingDiffers (eq_nil_of_distinct_eq_nil hempty)
  · cases h
  · next values hmany hone =>
    cases h
    refine .severalDiffer ?_
    generalize Scalar.distinct view.differing = values at hmany hone
    cases values with
    | nil => exact absurd rfl hmany
    | cons first rest =>
        cases rest with
        | nil => exact absurd rfl (hone first)
        | cons second rest => simp

/-- An expression in scope fails only for what can be pinned on it. -/
theorem Expr.Scoped.blames {names : List String} {expr : Expr R} (hscoped : expr.Scoped names)
    {view : View R} (hview : view.Provides names) {error : EvalError}
    (h : expr.eval view = .error error) : expr.Blames view error := by
  induction hscoped with
  | own => cases h
  | @parameter name hname =>
      obtain ⟨value, hvalue⟩ := Option.isSome_iff_exists.mp (hview name hname)
      rw [Expr.eval, hvalue] at h
      cases h
  | literal value => cases h
  | binary _ _ ihleft ihright =>
      rw [Expr.eval, bind_eq_error] at h
      rcases h with h | ⟨leftValue, _, h⟩
      · exact .left (ihleft h)
      · rcases bind_eq_error.mp h with h | ⟨rightValue, hright, h⟩
        · exact .right (ihright h)
        · obtain ⟨rfl, hzero, rfl⟩ := Operator.apply_eq_error h
          exact .zeroDivisor hright hzero
  | aggregate how withOwn =>
      cases withOwn with
      | true => cases h
      | false =>
          obtain ⟨hempty, rfl⟩ := Aggregation.apply_eq_error h
          exact .nothingReceived hempty
  | aggregateFrom how senders withOwn =>
      cases withOwn with
      | true => cases h
      | false =>
          obtain ⟨hempty, rfl⟩ := Aggregation.apply_eq_error h
          exact .nothingFrom hempty
  | other => exact View.other_eq_error h
  | valueFrom sender =>
      rw [Expr.eval, View.valueFrom] at h
      split at h
      · cases h
      · next hnone =>
        cases h
        refine .noMessage ?_
        intro message hmessage heq
        exact List.find?_eq_none.mp hnone message hmessage (beq_iff_eq.mpr heq)

/-- A predicate in scope fails only for what can be pinned on it, as long as
half the number of processes is no problem. -/
theorem Predicate.Scoped.blames {names : List String} {predicate : Predicate R}
    (hscoped : predicate.Scoped names) {view : View R} (hview : view.Provides names)
    (hhalf : view.hasHalf = true) {error : EvalError}
    (h : predicate.eval view = .error error) : predicate.Blames view error := by
  induction hscoped with
  | receivedAny => cases h
  | receivedAll => cases h
  | receivedAtLeast count => cases h
  | receivedMajority =>
      rw [Predicate.eval, if_pos hhalf] at h
      cases h
  | receivedDiff name => cases h
  | receivedFrom sender => cases h
  | isLeader =>
      rw [Predicate.eval] at h
      split at h
      · cases h
      · next hnone =>
        cases h
        exact .noLeader hnone
  | compare hleft hright =>
      rw [Predicate.eval, bind_eq_error] at h
      rcases h with h | ⟨leftValue, _, h⟩
      · exact .compareLeft (hleft.blames hview h)
      · rcases bind_eq_error.mp h with h | ⟨rightValue, _, h⟩
        · exact .compareRight (hright.blames hview h)
        · exact absurd h pure_ne_error
  | conj _ _ ihleft ihright =>
      rw [Predicate.eval, bind_eq_error] at h
      rcases h with h | ⟨holds, hleft, h⟩
      · exact .conjLeft (ihleft h)
      · cases holds with
        | true => exact .conjRight hleft (ihright h)
        | false => cases h
  | disj _ _ ihleft ihright =>
      rw [Predicate.eval, bind_eq_error] at h
      rcases h with h | ⟨holds, hleft, h⟩
      · exact .disjLeft (ihleft h)
      · cases holds with
        | true => cases h
        | false => exact .disjRight hleft (ihright h)
  | neg _ ih =>
      rw [Predicate.eval, bind_eq_error] at h
      rcases h with h | ⟨holds, _, h⟩
      · exact .neg (ih h)
      · exact absurd h pure_ne_error
  | constant value => cases h

/-- A rule in scope fails only for what can be pinned on it. -/
theorem Rule.Scoped.blames {names : List String} {rule : Rule R} (hscoped : rule.Scoped names)
    {view : View R} (hview : view.Provides names) (hhalf : view.hasHalf = true)
    {error : EvalError} (h : rule.eval view = .error error) : rule.Blames view error := by
  induction hscoped with
  | assign hvalue => exact .assign (hvalue.blames hview h)
  | combine how => cases h
  | ifDifferent hdifferent hsame =>
      rw [Rule.eval] at h
      split at h
      · next hempty => exact .same (List.isEmpty_iff.mp hempty) (hsame.blames hview h)
      · next hdiffers =>
        refine .different ?_ (hdifferent.blames hview h)
        intro hempty
        exact hdiffers (List.isEmpty_iff.mpr hempty)
  | onlyIf hcondition _ ih =>
      rw [Rule.eval, bind_eq_error] at h
      rcases h with h | ⟨holds, hholds, h⟩
      · exact .onlyIfCondition (hcondition.blames hview hhalf h)
      · cases holds with
        | true => exact .onlyIf hholds (ih h)
        | false => cases h
  | choose hcondition _ _ ihyes ihno =>
      rw [Rule.eval, bind_eq_error] at h
      rcases h with h | ⟨holds, hholds, h⟩
      · exact .chooseCondition (hcondition.blames hview hhalf h)
      · cases holds with
        | true => exact .yes hholds (ihyes h)
        | false => exact .no hholds (ihno h)

end LossyConsensus.Protocol
