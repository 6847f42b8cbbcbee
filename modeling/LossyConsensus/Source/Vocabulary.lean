/-
# Vocabulary

The words that an expression may use: the state variable in its various
spellings and, where they are known, the number of processes and the declared
parameters.
-/

import LossyConsensus.Source.Fault
import LossyConsensus.Text.Scan

namespace LossyConsensus.Source

open LossyConsensus.Text

/-- The number that a text writes where the grammar expects one. -/
def readNumber (text : List Char) : Except ConversionFault Nat :=
  (Decimal.readInteger text).mapError .integer

/-- What the text of a rule may refer to.  Without a number of processes any
positive process id is accepted, and without declared names any identifier
counts as a parameter. -/
structure Vocabulary where
  stateVar : String := "x"
  processes : Option Int := none
  declared : Option (List String) := none

/-- Whether a text is an identifier: a letter or an underscore followed by
letters, digits and underscores, all of ASCII. -/
def isIdentifier : List Char → Bool
  | [] => false
  | c :: rest =>
      (c.isAlpha || c == '_') && rest.all fun d => isAsciiAlphanumeric d || d == '_'

namespace Vocabulary

/-- The spellings of the process's own value. -/
def ownTokens (v : Vocabulary) : List (List Char) :=
  let x := v.stateVar.toList
  ["self".toList, x, x ++ "ᵢ".toList, x ++ "_i".toList, x ++ "[i]".toList]

/-- A process id, if it lies in the known range; `place` names the construct
that holds it. -/
def process (v : Vocabulary) (place : String) (id : Nat) : Except RuleError Int :=
  if id < 1 || v.processes.any (fun count => count < (id : Int)) then
    .error (.refused (.process place id v.processes))
  else .ok id

/-- The process id that a text writes. -/
def readProcess (v : Vocabulary) (place : String) (text : List Char) : Except RuleError Int := do
  let id ← (readNumber text).mapError .unconvertible
  v.process place id

end Vocabulary

end LossyConsensus.Source
