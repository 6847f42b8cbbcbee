/-
# Reading conditions

Conditions are written in pairs of lines: `for p > c:` or `for p < c:`, then a
comparison such as `A.consensus > B.consensus`.  A comparison may name the two
reports in either order; what is read always has the first report on the left.
-/

import LossyConsensus.Decimal.Numeral
import LossyConsensus.Source.Fault
import LossyConsensus.Source.Predicate
import LossyConsensus.Study.Condition

namespace LossyConsensus.Source

open LossyConsensus.Protocol LossyConsensus.Study LossyConsensus.Text

/-- The names under which a condition may refer to the two reports. -/
structure Names where
  first : String := "A"
  second : String := "B"

/-- Why a line of conditions is refused. -/
inductive ConditionFault
  | unexpectedLine (text : String)
  | malformedHeader (text : String)
  | missingComparison (header : String)
  | malformedThreshold (text : String)
  | malformedComparison (text : String) (names : Names)
  | differentMetrics (text : String)
  | unknownNames (text : String) (names : Names)

/-- The text of a fault in conditions. -/
def ConditionFault.message : ConditionFault → String
  | .unexpectedLine text =>
      "unexpected line '" ++ text ++ "', use 'for p > c:' followed by a metric comparison"
  | .malformedHeader text =>
      "invalid condition header '" ++ text ++ "', expected 'for p > c:' or 'for p < c:'"
  | .missingComparison header => "expected a metric comparison after '" ++ header ++ "'"
  | .malformedThreshold text => "invalid threshold '" ++ text ++ "'"
  | .malformedComparison text names =>
      "invalid metric comparison '" ++ text ++ "', expected e.g. '" ++ names.first ++
        ".consensus > " ++ names.second ++ ".consensus'"
  | .differentMetrics text =>
      "metric mismatch in '" ++ text ++ "': both sides must use the same metric"
  | .unknownNames text names =>
      "invalid protocol aliases in '" ++ text ++ "', use " ++ names.first ++ " and " ++
        names.second ++ " (or A and B)"

/-- A fault in conditions with the line on which it stands. -/
structure ConditionParseError where
  line : Nat
  fault : ConditionFault

/-- The text of an error in conditions. -/
def ConditionParseError.message (error : ConditionParseError) : String :=
  atLine (some error.line) error.fault.message

/-- Whether a character may stand in a threshold. -/
def isThresholdChar (c : Char) : Bool :=
  (48 ≤ c.toNat && c.toNat ≤ 57) || ['e', 'E', '.', '+', '-'].contains c

/-- The side and the text of the threshold in a header line. -/
def conditionHeader? (text : List Char) : Option (Side × List Char) := do
  let rest ← after? "p".toList (← blanks? (← after? "for".toList text))
  let (side, rest) ← match trimLeft rest with
    | '>' :: rest => some (Side.above, rest)
    | '<' :: rest => some (Side.below, rest)
    | _ => none
  let rest := trimLeft rest
  let threshold := rest.takeWhile isThresholdChar
  if threshold.isEmpty then none
  else if trimRight (trimLeft (rest.dropWhile isThresholdChar)) == [':'] then
    some (side, threshold)
  else none

/-- A report's name and a metric at the front of a text, and what follows. -/
def namedMetric? (text : List Char) : Option (String × Metric × List Char) := do
  let isNameChar (c : Char) : Bool := isWordChar c || c == '-'
  if !text.head?.any (fun c => c.isAlpha || c == '_') then none
  else
    let name := String.ofList (text.takeWhile isNameChar)
    let rest ← after? ".".toList (text.dropWhile isNameChar)
    [Metric.consensus, .discrepancy].findSome? fun metric =>
      (after? metric.name.toList rest).map fun rest => (name, metric, rest)

/-- A comparison line, taken apart. -/
structure Comparison where
  left : String
  leftMetric : Metric
  relation : Relation
  right : String
  rightMetric : Metric

/-- The parts of a comparison line. -/
def comparisonLine? (text : List Char) : Option Comparison := do
  let (left, leftMetric, rest) ← namedMetric? text
  let rest := trimLeft rest
  let (relation, rest) ← [Relation.ge, .le, .gt, .lt].findSome? fun relation =>
    (after? relation.sign.toList rest).map fun rest => (relation, rest)
  let (right, rightMetric, rest) ← namedMetric? (trimLeft rest)
  if (trimLeft rest).isEmpty then
    some { left, leftMetric, relation, right, rightMetric }
  else none

namespace Names

/-- Whether a name stands for the first report. -/
def isFirst (names : Names) (name : String) : Bool :=
  name == names.first || name == "A"

/-- Whether a name stands for the second report. -/
def isSecond (names : Names) (name : String) : Bool :=
  name == names.second || name == "B"

end Names

/-- Read a comparison line under a header. -/
def readComparison (names : Names) (side : Side) (threshold : Float) (text : List Char) :
    Except ConditionFault Condition :=
  let shown := String.ofList text
  match comparisonLine? text with
  | none => .error (.malformedComparison shown names)
  | some comparison =>
      if comparison.leftMetric != comparison.rightMetric then .error (.differentMetrics shown)
      else
        let metric := comparison.leftMetric
        let relation := comparison.relation
        if names.isFirst comparison.left && names.isSecond comparison.right then
          .ok { side, threshold, metric, relation }
        else if names.isSecond comparison.left && names.isFirst comparison.right then
          .ok { side, threshold, metric, relation := relation.converse }
        else .error (.unknownNames shown names)

/-- Read the pairs of lines of a list. -/
def readPairs (names : Names) :
    List (Nat × List Char) → Except ConditionParseError (List Condition)
  | [] => .ok []
  | (number, header) :: rest =>
      let shown := String.ofList header
      if !startsWith "for ".toList header then .error ⟨number, .unexpectedLine shown⟩
      else match conditionHeader? header, rest with
        | none, _ => .error ⟨number, .malformedHeader shown⟩
        | some _, [] => .error ⟨number, .missingComparison shown⟩
        | some (side, written), (comparisonNumber, comparison) :: rest =>
            match Decimal.readReal? written with
            | none => .error ⟨number, .malformedThreshold (String.ofList written)⟩
            | some threshold => do
                let condition ← (readComparison names side threshold comparison).mapError
                  fun fault => ⟨comparisonNumber, fault⟩
                let conditions ← readPairs names rest
                return condition :: conditions

/-- Read conditions.  Blank lines are passed over. -/
def readConditions (names : Names) (text : String) :
    Except ConditionParseError (List Condition) :=
  readPairs names (((numberedLines text.toList).map fun (number, line) =>
    (number, trim line)).filter fun (_, line) => !line.isEmpty)

end LossyConsensus.Source
