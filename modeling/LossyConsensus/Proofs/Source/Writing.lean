/-
# Writing update rules

How phases are written as the lines of an UPDATE RULE section: each phase as its
header line and its rule below it, each conditional as a block that closes with
its own `end`, each predicate and each expression with all its parentheses.  A
literal may be written as any numeral of its value, and the process's own value
and the target of an assignment in each of their spellings.

Only what can be said can be written.  The state variable is `x`; a parameter
must be declared and its name must be no word that has a meaning of its own; a
list of senders must not be empty; a count must not be negative.  Counts and
process ids must not need more digits than the reader takes.
-/

import LossyConsensus.Proofs.Source.Grammar
import LossyConsensus.Protocol.Phase
import Mathlib.Algebra.Ring.Int.Defs
import Mathlib.Algebra.Ring.Nat

namespace LossyConsensus.Source

open LossyConsensus.Decimal LossyConsensus.Protocol LossyConsensus.Text

/-! ## What can be said -/

/-- A name that is read as a parameter wherever it stands: an identifier that is
no word for the process's own value or the received other value, does not begin
as `value_from` does, and is neither `then` nor `not` in any case. -/
structure IsPlainName (name : String) : Prop where
  identifier : isIdentifier name.toList = true
  own : name.toList ∉ ownWords
  other : name.toList ≠ "received_other".toList
  value : ¬ "value_from".toList <+: name.toList.map Char.toLower
  keyword : name.toList.map Char.toLower ∉ ["then".toList, "not".toList]

/-- A count that can be written with as many digits as the reader takes. -/
def IsSayableCount (count : Int) : Prop :=
  0 ≤ count ∧ count < 10 ^ digitLimit

/-- The id of one of the processes. -/
def IsSayableId (processes : Nat) (id : Int) : Prop :=
  IsSayableCount id ∧ 1 ≤ id ∧ id ≤ processes

/-- An expression over the declared names and the ids of the processes. -/
def Expr.Sayable (processes : Nat) (names : List String) : Expr Float → Prop
  | .own | .aggregate _ _ | .other => True
  | .parameter name => name ∈ names ∧ IsPlainName name
  | .literal value => ∃ text, IsNumeral text ∧ readReal? text = some value
  | .binary _ left right => Sayable processes names left ∧ Sayable processes names right
  | .aggregateFrom _ senders _ => senders ≠ [] ∧ ∀ id ∈ senders, IsSayableId processes id
  | .valueFrom sender => IsSayableId processes sender
  | .foreign _ => False

/-- A predicate over the declared names and the ids of the processes. -/
def Predicate.Sayable (processes : Nat) (names : List String) : Predicate Float → Prop
  | .receivedAny | .receivedAll | .receivedMajority | .isLeader => True
  | .receivedAtLeast count => IsSayableCount count
  | .receivedDiff name => name = "x"
  | .receivedFrom sender => IsSayableId processes sender
  | .compare _ left right =>
      Expr.Sayable processes names left ∧ Expr.Sayable processes names right
  | .conj left right | .disj left right =>
      Sayable processes names left ∧ Sayable processes names right
  | .neg operand => Sayable processes names operand
  | .constant _ | .brokenNegation | .foreign _ => False

/-- A rule that assigns to the state variable, over the declared names and the
ids of the processes. -/
def Rule.Sayable (processes : Nat) (names : List String) : Rule Float → Prop
  | .assign target value =>
      (target = .plain "x" ∨ target = .indexed "x") ∧ Expr.Sayable processes names value
  | .combine _ => True
  | .ifDifferent different same =>
      Expr.Sayable processes names different ∧ Expr.Sayable processes names same
  | .onlyIf condition rule =>
      Predicate.Sayable processes names condition ∧ Sayable processes names rule
  | .choose condition yes no =>
      Predicate.Sayable processes names condition ∧ Sayable processes names yes ∧
        Sayable processes names no
  | .foreign _ => False

/-- A phase with a rule that can be said, and a number of rounds exactly where
its kind waits for them. -/
structure Phase.Sayable (processes : Nat) (names : List String) (phase : Phase Float) : Prop where
  rule : Rule.Sayable processes names phase.rule
  rounds : phase.kind = .afterRounds → ∃ count ∈ phase.after, IsSayableCount count
  other : phase.kind ≠ .afterRounds → phase.after = none

/-! ## Expressions -/

variable (limit : Option Nat)

/-- The digits of a count, in ASCII. -/
structure IsCount (digits : List Char) (count : Int) : Prop where
  number : isNumber digits = true
  source : IsSourceText digits
  short : ∀ most ∈ limit, digits.length ≤ most
  value : count = digitsValue digits

/-- Counts with a comma and a blank between them. -/
inductive WritesIds : List Int → List Char → Prop
  | last {id : Int} {digits : List Char} (hid : IsCount limit digits id) : WritesIds [id] digits
  | next {id : Int} {ids : List Int} {digits rest : List Char} (hid : IsCount limit digits id)
      (hrest : WritesIds ids rest) : WritesIds (id :: ids) (digits ++ ", ".toList ++ rest)

/-- A text in parentheses. -/
def enclosed (text : List Char) : List Char :=
  '(' :: (text ++ [')'])

/-- A word and its argument in parentheses. -/
def called (word : String) (argument : List Char) : List Char :=
  word.toList ++ enclosed argument

/-- The word for the messages of given senders, without or with the process's
own value. -/
def sendersWord (withOwn : Bool) : String :=
  if withOwn then "all_from" else "inbox_from"

/-- The word for everything received, without or with the process's own
value. -/
def inboxWord (withOwn : Bool) : String :=
  if withOwn then "all" else "inbox"

/-- An expression is written as a text. -/
inductive WritesExpr : Expr Float → List Char → Prop
  | own {text} (hown : text ∈ ownWords) : WritesExpr .own text
  | parameter {name} : WritesExpr (.parameter name) name.toList
  | literal {value text} (hform : IsNumeral text) (hvalue : readReal? text = some value) :
      WritesExpr (.literal value) text
  | binary {op left right l r} (hleft : WritesExpr l left) (hright : WritesExpr r right) :
      WritesExpr (.binary op l r) (enclosed (left ++ [' '] ++ op.sign :: ([' '] ++ right)))
  | aggregate {how withOwn} : WritesExpr (.aggregate how withOwn)
      (called how.word (inboxWord withOwn).toList)
  | aggregateFrom {how ids withOwn list} (hids : WritesIds limit ids list) :
      WritesExpr (.aggregateFrom how ids withOwn)
        (called how.word (called (sendersWord withOwn) list))
  | other : WritesExpr .other "received_other".toList
  | valueFrom {id digits} (hid : IsCount limit digits id) :
      WritesExpr (.valueFrom id) (called "value_from" digits)

/-! ## Predicates -/

/-- A predicate is written as a text. -/
inductive WritesPredicate : Predicate Float → List Char → Prop
  | receivedAny : WritesPredicate .receivedAny "received_any".toList
  | receivedAll : WritesPredicate .receivedAll "received_all".toList
  | receivedMajority : WritesPredicate .receivedMajority "received_majority".toList
  | isLeader : WritesPredicate .isLeader "self is leader".toList
  | receivedDiff : WritesPredicate (.receivedDiff "x") "received_diff".toList
  | receivedAtLeast {count digits} (hcount : IsCount limit digits count) :
      WritesPredicate (.receivedAtLeast count) (called "received_at_least" digits)
  | receivedFrom {id digits} (hid : IsCount limit digits id) :
      WritesPredicate (.receivedFrom id) (called "received_from" digits)
  | compare {op l r left right} (hleft : WritesExpr limit l left)
      (hright : WritesExpr limit r right) :
      WritesPredicate (.compare op l r)
        (enclosed (left ++ ' ' :: (op.sign.toList ++ ' ' :: right)))
  | conj {l r left right} (hleft : WritesPredicate l left) (hright : WritesPredicate r right) :
      WritesPredicate (.conj l r) (enclosed (left ++ " and ".toList ++ right))
  | disj {l r left right} (hleft : WritesPredicate l left) (hright : WritesPredicate r right) :
      WritesPredicate (.disj l r) (enclosed (left ++ " or ".toList ++ right))
  | neg {p operand} (hoperand : WritesPredicate p operand) :
      WritesPredicate (.neg p) (enclosed ("not ".toList ++ operand))

/-! ## Rules -/

/-- The target of an assignment is written as a text. -/
inductive WritesTarget : Target → List Char → Prop
  | plain : WritesTarget (.plain "x") "x".toList
  | indexed {text} (hindex : text ∈ ["xᵢ", "x_i", "x[i]"].map String.toList) :
      WritesTarget (.indexed "x") text

/-- The line that opens a conditional. -/
def ifLine (condition : List Char) : List Char :=
  "if ".toList ++ condition ++ " then".toList

/-- A rule is written as lines. -/
inductive WritesRule : Rule Float → List (List Char) → Prop
  | assign {target value left right arrow} (htarget : WritesTarget target left)
      (harrow : arrow ∈ ["←", "<-"]) (hvalue : WritesExpr limit value right) :
      WritesRule (.assign target value) [left ++ ' ' :: (arrow.toList ++ ' ' :: right)]
  | combine {how} : WritesRule (.combine how) [how.word.toList]
  | ifDifferent {d s different same} (hdifferent : WritesExpr limit d different)
      (hsame : WritesExpr limit s same) :
      WritesRule (.ifDifferent d s)
        [called "IF_RECEIVED_DIFF_THEN" (different ++ ", ".toList ++ same)]
  | onlyIf {condition rule text lines} (hcondition : WritesPredicate limit condition text)
      (hrule : WritesRule rule lines) :
      WritesRule (.onlyIf condition rule) (ifLine text :: (lines ++ ["end".toList]))
  | choose {condition yes no text linesYes linesNo}
      (hcondition : WritesPredicate limit condition text) (hyes : WritesRule yes linesYes)
      (hno : WritesRule no linesNo) :
      WritesRule (.choose condition yes no)
        (ifLine text :: (linesYes ++ "else".toList :: (linesNo ++ ["end".toList])))

/-! ## Phases -/

/-- The header of a phase is written as a line. -/
inductive WritesHeader : PhaseKind → Option Int → List Char → Prop
  | eachRound : WritesHeader .eachRound none "EACH ROUND:".toList
  | firstRound : WritesHeader .firstRound none "FIRST ROUND:".toList
  | afterRounds {count digits} (hcount : IsCount limit digits count) :
      WritesHeader .afterRounds (some count) ("AFTER ".toList ++ digits ++ " ROUNDS:".toList)
  | untilConsensus : WritesHeader .untilConsensus none "UNTIL CONSENSUS:".toList
  | atEnd : WritesHeader .atEnd none "END:".toList

/-- Phases are written as lines. -/
inductive WritesPhases : List (Phase Float) → List (List Char) → Prop
  | nil : WritesPhases [] []
  | cons {kind after rule phases header lines rest} (hheader : WritesHeader limit kind after header)
      (hrule : WritesRule limit rule lines) (hrest : WritesPhases phases rest) :
      WritesPhases ({ kind, rule, after } :: phases) (header :: (lines ++ rest))

end LossyConsensus.Source
