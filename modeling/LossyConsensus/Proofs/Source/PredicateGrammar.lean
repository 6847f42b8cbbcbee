/-
# The grammar of predicates

A predicate is a disjunction of conjunctions, and both nest to the right.  What they
join is an atom, a comparison of two expressions, a negation, or a predicate in
parentheses.  A connective stands between single spaces, around which there may be more
blanks; words are written in any case.  A comparison belongs to the nearest negation
before it, since what is negated reaches up to the next connective.

The grammar is given for the state variable `x`, over the characters of source texts, and
it is parametric in the number of digits of counts and process ids.  No parameter in it
is spelt like a word of conditions.
-/

import LossyConsensus.Proofs.Source.Writing

namespace LossyConsensus.Source

open LossyConsensus.Decimal LossyConsensus.Protocol LossyConsensus.Text

/-- The words that join or begin conditions. -/
def conditionWords : List (List Char) :=
  ["and".toList, "or".toList, "not".toList, "if".toList]

/-- No parameter of an expression is spelt like a word of conditions, in any case. -/
def Expr.AvoidsWords : Expr Float → Prop
  | .parameter name => name.toList.map Char.toLower ∉ conditionWords
  | .binary _ left right => AvoidsWords left ∧ AvoidsWords right
  | _ => True

/-! ## Atoms -/

/-- A word in any case, alone or directly before the state variable in parentheses. -/
inductive IsAbout (word : String) : List Char → Prop
  | plain {head : List Char} (hword : IsWordOf word head) : IsAbout word head
  | named {head name : List Char} (hword : IsWordOf word head) (hname : IsWordOf "x" name) :
      IsAbout word (head ++ enclosed name)

/-- A predicate without connectives and comparisons that stands in no parentheses. -/
inductive IsPredicateAtom (limit : Option Nat) : List Char → Predicate Float → Prop
  | receivedAny {text : List Char} (habout : IsAbout "received_any" text) :
      IsPredicateAtom limit text .receivedAny
  | receivedAll {text : List Char} (habout : IsAbout "received_all" text) :
      IsPredicateAtom limit text .receivedAll
  | receivedMajority {text : List Char} (habout : IsAbout "received_majority" text) :
      IsPredicateAtom limit text .receivedMajority
  | isLeader {self between is gap leader : List Char} (hself : IsWordOf "self" self)
      (hbetween : Blanks between) (hbetweenNil : between ≠ []) (his : IsWordOf "is" is)
      (hgap : Blanks gap) (hgapNil : gap ≠ []) (hleader : IsWordOf "leader" leader) :
      IsPredicateAtom limit (self ++ (between ++ (is ++ (gap ++ leader)))) .isLeader
  | receivedDiff {text : List Char} (hword : IsWordOf "received_diff" text) :
      IsPredicateAtom limit text (.receivedDiff "x")
  | receivedDiffOf {text front name back : List Char}
      (hcall : IsCall "received_diff" text (front ++ name ++ back)) (hfront : Blanks front)
      (hback : Blanks back) (hname : IsWordOf "x" name) :
      IsPredicateAtom limit text (.receivedDiff "x")
  | receivedAtLeast {text front digits back : List Char}
      (hcall : IsCall "received_at_least" text (front ++ digits ++ back)) (hfront : Blanks front)
      (hback : Blanks back) (hnumber : isNumber digits = true)
      (hshort : ∀ most ∈ limit, digits.length ≤ most) :
      IsPredicateAtom limit text (.receivedAtLeast (digitsValue digits : Nat))
  | receivedFrom {text front digits back : List Char} {id : Int}
      (hcall : IsCall "received_from" text (front ++ digits ++ back)) (hfront : Blanks front)
      (hback : Blanks back) (hid : IsId limit digits id) :
      IsPredicateAtom limit text (.receivedFrom id)

/-! ## Derivations -/

/-- How tightly a predicate is bound together. -/
inductive PredicateLevel
  | disjunction | conjunction | basic

/-- A text derives a predicate at a level. -/
inductive DerivesPredicate (limit : Option Nat) :
    PredicateLevel → List Char → Predicate Float → Prop
  | atom {text : List Char} {p : Predicate Float} (hatom : IsPredicateAtom limit text p) :
      DerivesPredicate limit .basic text p
  | compare {left front back right : List Char} {l r : Expr Float} {op : Relation}
      (hleft : Derives limit .sum left l) (hl : Expr.AvoidsWords l) (hfront : Blanks front)
      (hback : Blanks back) (hright : Derives limit .sum right r) (hr : Expr.AvoidsWords r) :
      DerivesPredicate limit .basic (left ++ (front ++ (op.sign.toList ++ (back ++ right))))
        (.compare op l r)
  | negated {word gap operand : List Char} {p : Predicate Float} (hword : IsWordOf "not" word)
      (hgap : Blanks gap) (hoperand : DerivesPredicate limit .basic operand p) :
      DerivesPredicate limit .basic (word ++ ' ' :: (gap ++ operand)) (.neg p)
  | negatedEnclosed {word front body back : List Char} {p : Predicate Float}
      (hword : IsWordOf "not" word) (hfront : Blanks front)
      (hbody : DerivesPredicate limit .disjunction body p) (hback : Blanks back) :
      DerivesPredicate limit .basic (word ++ enclosed (front ++ body ++ back)) (.neg p)
  | enclosed {front body back : List Char} {p : Predicate Float} (hfront : Blanks front)
      (hbody : DerivesPredicate limit .disjunction body p) (hback : Blanks back) :
      DerivesPredicate limit .basic (enclosed (front ++ body ++ back)) p
  | ofBasic {text : List Char} {p : Predicate Float} (h : DerivesPredicate limit .basic text p) :
      DerivesPredicate limit .conjunction text p
  | ofConjunction {text : List Char} {p : Predicate Float}
      (h : DerivesPredicate limit .conjunction text p) : DerivesPredicate limit .disjunction text p
  | conj {left front word back right : List Char} {l r : Predicate Float}
      (hleft : DerivesPredicate limit .basic left l) (hfront : Blanks front)
      (hword : IsWordOf "and" word) (hback : Blanks back)
      (hright : DerivesPredicate limit .conjunction right r) :
      DerivesPredicate limit .conjunction
        (left ++ (front ++ ' ' :: (word ++ ' ' :: (back ++ right)))) (.conj l r)
  | disj {left front word back right : List Char} {l r : Predicate Float}
      (hleft : DerivesPredicate limit .conjunction left l) (hfront : Blanks front)
      (hword : IsWordOf "or" word) (hback : Blanks back)
      (hright : DerivesPredicate limit .disjunction right r) :
      DerivesPredicate limit .disjunction
        (left ++ (front ++ ' ' :: (word ++ ' ' :: (back ++ right)))) (.disj l r)

/-- A whole text over the characters of source texts: a predicate between blanks. -/
inductive IsCondition (limit : Option Nat) : List Char → Predicate Float → Prop
  | intro {front body back : List Char} {p : Predicate Float} (hfront : Blanks front)
      (hbody : DerivesPredicate limit .disjunction body p) (hsource : IsSourceText body)
      (hback : Blanks back) : IsCondition limit (front ++ body ++ back) p

/-- What is bound most tightly can stand at every level. -/
theorem DerivesPredicate.of_basic {limit : Option Nat} {text : List Char} {p : Predicate Float}
    (h : DerivesPredicate limit .basic text p) (level : PredicateLevel) :
    DerivesPredicate limit level text p := by
  cases level with
  | basic => exact h
  | conjunction => exact .ofBasic h
  | disjunction => exact .ofConjunction (.ofBasic h)

/-! ## Printing -/

/-- A predicate with parentheses around every operand of a connective; `word` writes the
atoms and `expr` the expressions that are compared, with or without parentheses. -/
def printed (word : Predicate Float → List Char) (expr : Expr Float → List Char) :
    Predicate Float → List Char
  | .disj left right =>
      enclosed (printed word expr left) ++ " or ".toList ++ enclosed (printed word expr right)
  | .conj left right =>
      enclosed (printed word expr left) ++ " and ".toList ++ enclosed (printed word expr right)
  | .neg operand => "not ".toList ++ enclosed (printed word expr operand)
  | .compare op left right => expr left ++ ' ' :: (op.sign.toList ++ ' ' :: expr right)
  | atom => word atom

/-- An expression is written as a text that derives it and in which no parameter is spelt
like a word of conditions. -/
structure WritesOperand (limit : Option Nat) (e : Expr Float) (text : List Char) : Prop where
  derives : Derives limit .sum text e
  avoids : Expr.AvoidsWords e
  source : IsSourceText text

/-- All atoms and all compared expressions of a predicate are written as texts that derive
them. -/
def WritesLeaves (limit : Option Nat) (word : Predicate Float → List Char)
    (expr : Expr Float → List Char) : Predicate Float → Prop
  | .disj left right | .conj left right =>
      WritesLeaves limit word expr left ∧ WritesLeaves limit word expr right
  | .neg operand => WritesLeaves limit word expr operand
  | .compare _ left right =>
      WritesOperand limit left (expr left) ∧ WritesOperand limit right (expr right)
  | atom => IsPredicateAtom limit (word atom) atom ∧ IsSourceText (word atom)

end LossyConsensus.Source
