/-
# Reading predicates

A predicate is divided at its first `or` outside brackets, else at its first
`and`, so both nest to the right and `and` binds tighter; then come `not`, the
comparisons and the words for what was received.  Keywords may be written in
any case and stand between single spaces.
-/

import LossyConsensus.Source.Expr

namespace LossyConsensus.Source

open LossyConsensus.Protocol LossyConsensus.Text

/-- The comparison operators with their signs, a longer sign before the shorter
one that begins it. -/
def relations : List (String × Relation) :=
  [Relation.ge, .le, .ne, .eq, .gt, .lt].map fun relation => (relation.sign, relation)

/-- The first comparison outside brackets, in the order of the signs. -/
def comparison? (text : List Char) : Option (List Char × Relation × List Char) :=
  relations.findSome? fun (sign, relation) =>
    (cutOutside? sign.toList text).map fun (left, right) => (left, relation, right)

/-- The argument in parentheses that may follow a word; the inner value is
absent when nothing follows. -/
def argumentOf? (word : String) (text : List Char) : Option (Option (List Char)) := do
  let rest := trimLeft (← after? word.toList text)
  if rest.isEmpty then
    return none
  return some (trim (← parenthesised? rest))

/-- The digits in parentheses that follow a word. -/
def numberArgument? (word : String) (text : List Char) : Option (List Char) :=
  (argumentOf? word text).join.filter isNumber

/-- A trimmed text without connectives and comparisons as a predicate. -/
def readAtom (v : Vocabulary) (text : List Char) : Except RuleError (Predicate Float) :=
  let compact := squeeze (lower text)
  let variableName := String.ofList (lower v.stateVar.toList)
  let isAbout (word : String) : Bool :=
    let found := String.ofList compact
    found == word || found == word ++ "(" ++ variableName ++ ")"
  if isAbout "received_any" then .ok .receivedAny
  else if isAbout "received_all" then .ok .receivedAll
  else if isAbout "received_majority" then .ok .receivedMajority
  else if compact == "self is leader".toList then .ok .isLeader
  else match (argumentOf? "received_diff" compact).filter fun found => found.all isWord with
    | some found =>
        let name := found.map String.ofList
        if name.all (· == variableName) then .ok (.receivedDiff v.stateVar)
        else .error (.refused (.diffVariable v.stateVar (name.getD "")))
    | none =>
      if startsWith "received_at_least".toList compact then
        match numberArgument? "received_at_least" compact with
        | some digits => do
            let count ← (readNumber digits).mapError .unconvertible
            return .receivedAtLeast count
        | none => .error (.refused .atLeastArgument)
      else if startsWith "received_from".toList compact then
        match numberArgument? "received_from" compact with
        | some digits => (v.readProcess "received_from" digits).map Predicate.receivedFrom
        | none => .error (.refused .fromArgument)
      else .error (.refused (.unknownPredicate (String.ofList text)))

/-- What follows a leading `not`, which a space or a parenthesis ends. -/
def negated? (text : List Char) : Option (List Char) :=
  let small := lower text
  if startsWith "not ".toList small || startsWith "not(".toList small then some (text.drop 3)
  else none

theorem length_cutOutsideAnyCase? {word text left right : List Char} (hword : word ≠ [])
    (h : cutOutsideAnyCase? word text = some (left, right)) :
    left.length < text.length ∧ right.length < text.length := by
  have hlength := length_cutOutsideFrom h
  have hpos := List.length_pos_iff.mpr hword
  simp only [List.length_nil] at hlength
  omega

theorem length_negated? {text rest : List Char} (h : negated? text = some rest) :
    rest.length < text.length := by
  simp only [negated?] at h
  split at h
  · next hstart =>
    obtain rfl := by simpa using h
    cases text with
    | nil => simp [lower, lowerFrom, startsWith, after?] at hstart
    | cons c rest => simp only [List.length_drop, List.length_cons]; omega
  · simp at h

/-- Read a predicate. -/
def readPredicate (v : Vocabulary) (source : List Char) : Except RuleError (Predicate Float) :=
  let text := trim source
  if text.isEmpty then .error (.refused .emptyPredicate)
  else if _h : stripEnclosing text ≠ text then readPredicate v (stripEnclosing text)
  else match _h : cutOutsideAnyCase? " or ".toList text with
    | some (left, right) => do
        let leftPart ← readPredicate v left
        let rightPart ← readPredicate v right
        return .disj leftPart rightPart
    | none => match _h : cutOutsideAnyCase? " and ".toList text with
      | some (left, right) => do
          let leftPart ← readPredicate v left
          let rightPart ← readPredicate v right
          return .conj leftPart rightPart
      | none => match _h : negated? text with
        | some rest => do
            let operand ← readPredicate v rest
            return .neg operand
        | none => match comparison? text with
          | some (left, relation, right) => do
              let leftExpr ← readExpr v left
              let rightExpr ← readExpr v right
              return .compare relation leftExpr rightExpr
          | none => readAtom v text
termination_by source.length
decreasing_by
  · exact Nat.lt_of_lt_of_le (length_stripEnclosing_lt _h) (length_trim_le source)
  · exact Nat.lt_of_lt_of_le (length_cutOutsideAnyCase? (by decide) _h).1 (length_trim_le source)
  · exact Nat.lt_of_lt_of_le (length_cutOutsideAnyCase? (by decide) _h).2 (length_trim_le source)
  · exact Nat.lt_of_lt_of_le (length_cutOutsideAnyCase? (by decide) _h).1 (length_trim_le source)
  · exact Nat.lt_of_lt_of_le (length_cutOutsideAnyCase? (by decide) _h).2 (length_trim_le source)
  · exact Nat.lt_of_lt_of_le (length_negated? _h) (length_trim_le source)

end LossyConsensus.Source
