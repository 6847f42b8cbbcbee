/-
# Reading expressions

An expression is divided at its last joining `+` or `-` outside brackets, else
at its last `*` or `/`; so both pairs associate to the left and the second
binds tighter.  What remains is a signed operand, a numeral, an aggregate, or
one of the words of the vocabulary.
-/

import LossyConsensus.Decimal.Numeral
import LossyConsensus.Source.Vocabulary
import LossyConsensus.Text.Nesting

namespace LossyConsensus.Source

open LossyConsensus.Protocol LossyConsensus.Text

/-- The aggregations with the words that name them. -/
def aggregations : List (String × Aggregation) :=
  [Aggregation.sum, .avg, .min, .max, .count].map fun how => (how.word, how)

/-- A word in any case at the front of a text that is followed by blanks and
parentheses up to the end of the text: the word as written and what the
parentheses hold. -/
def call? (word : String) (text : List Char) : Option (List Char × List Char) := do
  let rest ← afterAnyCase? word.toList text
  let argument ← parenthesised? (trimLeft rest)
  return (text.take word.length, argument)

/-- The operator that a character writes. -/
def operator (c : Char) : Operator :=
  if c == '+' then .add else if c == '-' then .sub else if c == '*' then .mul else .div

/-- The process ids of a list, separated by commas. -/
def readSenders (v : Vocabulary) (place argument : String) :
    List (List Char) → Except RuleError (List Int)
  | [] => .ok []
  | part :: parts => do
      if (trim part).isEmpty then
        throw (.refused (.emptySender argument))
      let id ← v.readProcess place part
      let ids ← readSenders v place argument parts
      return id :: ids

/-- Whether a text is a non-empty list of digits, commas and blanks. -/
def isSenderList (text : List Char) : Bool :=
  !text.isEmpty && text.all fun c => isDigit c || c == ',' || isBlank c

/-- The senders that restrict an aggregate: the word that introduces them,
as written, and the text of the list. -/
def senderList? (argument : List Char) : Option (List Char × List Char) :=
  (call? "inbox_from" argument <|> call? "all_from" argument).filter fun found =>
    isSenderList found.2

/-- An aggregate over the source that `argument` names. -/
def readAggregate (v : Vocabulary) (how : Aggregation) (argument : List Char) :
    Except RuleError (Expr Float) :=
  let text := String.ofList argument
  let small := String.ofList (lower argument)
  if small == "inbox" || small == "values" then .ok (.aggregate how false)
  else if small == "all" then .ok (.aggregate how true)
  else match senderList? argument with
    | some (word, list) => do
        let senders ← readSenders v (String.ofList word) text (splitOn ',' list)
        return .aggregateFrom how senders (lower word == "all_from".toList)
    | none => .error (.refused (.unknownSource text how))

/-- An aggregate: its name as written and the text between its parentheses,
which stand on one line. -/
def aggregateCall? (text : List Char) : Option (List Char × List Char) :=
  (aggregations.findSome? fun (word, _) => call? word text).filter fun found =>
    isOneLine found.2

/-- The argument of `received_other`, if the text is that word with or without
one. -/
def otherArgument? (text : List Char) : Option (Option (List Char)) := do
  let rest := trimLeft (← after? "received_other".toList text)
  if rest.isEmpty then
    return none
  let argument := trim (← parenthesised? rest)
  if isWord argument then return some argument else none

/-- A trimmed text without operators as an expression. -/
def readOperand (v : Vocabulary) (text : List Char) : Except RuleError (Expr Float) :=
  let shown := String.ofList text
  match aggregateCall? text with
  | some (word, argument) =>
      let name := String.ofList (lower word)
      match aggregations.lookup name with
      | some how => readAggregate v how (trim argument)
      | none => .error (.unconvertible (.aggregation name))
  | none =>
    let small := lower text
    if startsWith "value_from".toList small then
      match (call? "value_from" small).map fun found => trim found.2 with
      | some argument =>
          if isNumber argument then
            (v.readProcess "value_from" argument).map Expr.valueFrom
          else .error (.refused (.valueFromArgument shown))
      | none => .error (.refused (.valueFromArgument shown))
    else
      match otherArgument? text with
      | some none => .ok .other
      | some (some argument) =>
          let found := String.ofList argument
          if found == v.stateVar then .ok .other
          else .error (.refused (.otherVariable v.stateVar found))
      | none =>
          if v.ownTokens.contains text then .ok .own
          else if !isIdentifier text then .error (.refused (.unknownToken shown))
          else if v.declared.any (fun names => !names.contains shown) then
            .error (.refused (.undeclared shown))
          else .ok (.parameter shown)

/-- The last joining operator of the looser pair, or else of the tighter
one. -/
def lastOperator? (text : List Char) : Option (List Char × Char × List Char) :=
  cutOperator? ['+', '-'] text <|> cutOperator? ['*', '/'] text

theorem length_lastOperator? {text left right : List Char} {c : Char}
    (h : lastOperator? text = some (left, c, right)) :
    left.length < text.length ∧ right.length < text.length := by
  simp only [lastOperator?, Option.orElse_eq_orElse, Option.orElse_eq_or,
    Option.or_eq_some_iff] at h
  rcases h with h | ⟨_, h⟩ <;> exact length_cutOperator? h

theorem length_drop_one_lt {text : List Char} {c : Char} (h : text.head? = some c) :
    (text.drop 1).length < text.length := by
  cases text with
  | nil => simp at h
  | cons => simp

/-- Read an expression. -/
def readExpr (v : Vocabulary) (source : List Char) : Except RuleError (Expr Float) :=
  let text := trim source
  if text.isEmpty then .error (.refused .emptyExpr)
  else match Decimal.readLiteral? text with
    | some numeral => .ok (.literal numeral.value)
    | none =>
      if _h : stripEnclosing text ≠ text then readExpr v (stripEnclosing text)
      else match _h : lastOperator? text with
        | some (left, c, right) =>
            if (trim left).isEmpty || (trim right).isEmpty then
              .error (.refused (.missingOperand c (String.ofList text)))
            else do
              let leftExpr ← readExpr v left
              let rightExpr ← readExpr v right
              return .binary (operator c) leftExpr rightExpr
        | none =>
            if _h : text.head? = some '-' then do
              let operand ← readExpr v (text.drop 1)
              return .binary .sub (.literal 0.0) operand
            else readOperand v text
termination_by source.length
decreasing_by
  · exact Nat.lt_of_lt_of_le (length_stripEnclosing_lt _h) (length_trim_le source)
  · exact Nat.lt_of_lt_of_le (length_lastOperator? _h).1 (length_trim_le source)
  · exact Nat.lt_of_lt_of_le (length_lastOperator? _h).2 (length_trim_le source)
  · exact Nat.lt_of_lt_of_le (length_drop_one_lt _h) (length_trim_le source)

end LossyConsensus.Source
