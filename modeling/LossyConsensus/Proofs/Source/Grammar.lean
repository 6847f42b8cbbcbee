/-
# The grammar of expressions

An expression is a sum of products of factors, each sum and each product grouped
to the left.  A factor is a numeral, a negated factor, an atom or an expression
in parentheses.  Blanks may stand between the tokens.

The grammar is given for the state variable `x`, with no restriction on the
parameters and on the number of processes.  It is parametric in the number of
digits that a process id may be written with.
-/

import LossyConsensus.Proofs.Decimal.Numeral
import LossyConsensus.Source.Expr

namespace LossyConsensus.Source

open LossyConsensus.Decimal LossyConsensus.Protocol LossyConsensus.Text

/-- The characters of the texts considered: those of ASCII that can be printed,
the tab, and the index of the state variable. -/
def isSourceChar (c : Char) : Bool :=
  (32 ≤ c.toNat && c.toNat ≤ 126) || c == '\t' || c == 'ᵢ'

/-- A text over these characters. -/
def IsSourceText (text : List Char) : Prop :=
  ∀ c ∈ text, isSourceChar c = true

/-! ## Tokens -/

/-- A word of small letters, written in any case. -/
def IsWordOf (word : String) (text : List Char) : Prop :=
  text.map Char.toLower = word.toList

/-- A word in any case before an argument in parentheses. -/
inductive IsCall (word : String) : List Char → List Char → Prop
  | intro {head gap argument : List Char} (hword : IsWordOf word head) (hgap : Blanks gap) :
      IsCall word (head ++ (gap ++ '(' :: (argument ++ [')']))) argument

/-- A positive process id, written with no more digits than the limit allows. -/
structure IsId (limit : Option Nat) (digits : List Char) (id : Int) : Prop where
  number : isNumber digits = true
  short : ∀ most ∈ limit, digits.length ≤ most
  value : id = digitsValue digits
  positive : 1 ≤ id

/-- Process ids with commas between them. -/
inductive IsIdList (limit : Option Nat) : List Char → List Int → Prop
  | last {front digits back : List Char} {id : Int} (hfront : Blanks front)
      (hid : IsId limit digits id) (hback : Blanks back) :
      IsIdList limit (front ++ digits ++ back) [id]
  | next {front digits back rest : List Char} {id : Int} {ids : List Int} (hfront : Blanks front)
      (hid : IsId limit digits id) (hback : Blanks back) (hrest : IsIdList limit rest ids) :
      IsIdList limit (front ++ digits ++ back ++ ',' :: rest) (id :: ids)

/-- The values over which an aggregate ranges. -/
inductive IsSource (limit : Option Nat) (how : Aggregation) : List Char → Expr Float → Prop
  | inbox {text : List Char} (hword : IsWordOf "inbox" text) :
      IsSource limit how text (.aggregate how false)
  | values {text : List Char} (hword : IsWordOf "values" text) :
      IsSource limit how text (.aggregate how false)
  | all {text : List Char} (hword : IsWordOf "all" text) :
      IsSource limit how text (.aggregate how true)
  | inboxFrom {text list : List Char} {ids : List Int} (hcall : IsCall "inbox_from" text list)
      (hids : IsIdList limit list ids) : IsSource limit how text (.aggregateFrom how ids false)
  | allFrom {text list : List Char} {ids : List Int} (hcall : IsCall "all_from" text list)
      (hids : IsIdList limit list ids) : IsSource limit how text (.aggregateFrom how ids true)

/-- The spellings of the process's own value. -/
def ownWords : List (List Char) :=
  ["self", "x", "xᵢ", "x_i", "x[i]"].map String.toList

/-- An expression without operators that is no numeral and stands in no
parentheses. -/
inductive IsAtom (limit : Option Nat) : List Char → Expr Float → Prop
  | aggregate {how : Aggregation} {text front source back : List Char} {e : Expr Float}
      (hcall : IsCall how.word text (front ++ source ++ back)) (hfront : Blanks front)
      (hback : Blanks back) (hsource : IsSource limit how source e) : IsAtom limit text e
  | valueFrom {text front digits back : List Char} {id : Int}
      (hcall : IsCall "value_from" text (front ++ digits ++ back)) (hfront : Blanks front)
      (hback : Blanks back) (hid : IsId limit digits id) : IsAtom limit text (.valueFrom id)
  | other : IsAtom limit "received_other".toList .other
  | otherOf {gap front back : List Char} (hgap : Blanks gap) (hfront : Blanks front)
      (hback : Blanks back) :
      IsAtom limit
        ("received_other".toList ++ (gap ++ '(' :: (front ++ ['x'] ++ back ++ [')']))) .other
  | own {text : List Char} (hown : text ∈ ownWords) : IsAtom limit text .own
  | parameter {text : List Char} (hidentifier : isIdentifier text = true)
      (hown : text ∉ ownWords) (hother : text ≠ "received_other".toList)
      (hvalue : ¬ "value_from".toList <+: text.map Char.toLower) :
      IsAtom limit text (.parameter (String.ofList text))

/-! ## Derivations -/

/-- How tightly an expression is bound together. -/
inductive Level
  | sum | product | factor

/-- A text derives an expression at a level. -/
inductive Derives (limit : Option Nat) : Level → List Char → Expr Float → Prop
  | numeral {text : List Char} {value : Float} (hform : IsNumeral text)
      (hvalue : readReal? text = some value) : Derives limit .factor text (.literal value)
  | negated {gap operand : List Char} {e : Expr Float} (hgap : Blanks gap)
      (hoperand : Derives limit .factor operand e)
      (hform : ¬ IsNumeral ('-' :: (gap ++ operand))) :
      Derives limit .factor ('-' :: (gap ++ operand)) (.binary .sub (.literal 0.0) e)
  | atom {text : List Char} {e : Expr Float} (hatom : IsAtom limit text e) :
      Derives limit .factor text e
  | enclosed {front body back : List Char} {e : Expr Float} (hfront : Blanks front)
      (hbody : Derives limit .sum body e) (hback : Blanks back) :
      Derives limit .factor ('(' :: (front ++ body ++ back ++ [')'])) e
  | ofFactor {text : List Char} {e : Expr Float} (h : Derives limit .factor text e) :
      Derives limit .product text e
  | ofProduct {text : List Char} {e : Expr Float} (h : Derives limit .product text e) :
      Derives limit .sum text e
  | product {left front back right : List Char} {l r : Expr Float} {op : Operator}
      (hop : op = .mul ∨ op = .div) (hleft : Derives limit .product left l)
      (hfront : Blanks front) (hback : Blanks back) (hright : Derives limit .factor right r) :
      Derives limit .product (left ++ front ++ op.sign :: (back ++ right)) (.binary op l r)
  | sum {left front back right : List Char} {l r : Expr Float} {op : Operator}
      (hop : op = .add ∨ op = .sub) (hleft : Derives limit .sum left l)
      (hfront : Blanks front) (hback : Blanks back) (hright : Derives limit .product right r) :
      Derives limit .sum (left ++ front ++ op.sign :: (back ++ right)) (.binary op l r)

/-- A whole text: an expression between blanks. -/
inductive IsExpression (limit : Option Nat) : List Char → Expr Float → Prop
  | intro {front body back : List Char} {e : Expr Float} (hfront : Blanks front)
      (hbody : Derives limit .sum body e) (hback : Blanks back) :
      IsExpression limit (front ++ body ++ back) e

/-! ## Larger and smaller levels -/

namespace Derives

variable {limit : Option Nat} {level : Level} {text : List Char} {e : Expr Float}

/-- What is bound most tightly can stand at every level. -/
theorem of_factor (h : Derives limit .factor text e) (level : Level) : Derives limit level text e := by
  cases level with
  | factor => exact h
  | product => exact .ofFactor h
  | sum => exact .ofProduct (.ofFactor h)

/-- What derives at any level is an expression. -/
theorem toSum (h : Derives limit level text e) : Derives limit .sum text e := by
  cases level with
  | sum => exact h
  | product => exact .ofProduct h
  | factor => exact h.of_factor .sum

end Derives

end LossyConsensus.Source
