/-
# Faults in a source text

Why a rule or a protocol text is refused.  A fault in the grammar is tied to a
line where there is one.  Two further faults arise when a well-placed word or
number turns out not to be convertible; they carry no line.
-/

import LossyConsensus.Decimal.Integer
import LossyConsensus.Protocol.Declaration

namespace LossyConsensus.Source

open LossyConsensus.Protocol

/-- Why the text of an expression, a predicate or a rule is refused. -/
inductive RuleFault
  | emptyExpr
  | missingOperand (operator : Char) (text : String)
  | valueFromArgument (text : String)
  | otherVariable (expected found : String)
  | undeclared (name : String)
  | unknownToken (text : String)
  | emptySender (text : String)
  | process (place : String) (id : Nat) (limit : Option Int)
  | unknownSource (text : String) (how : Aggregation)
  | emptyPredicate
  | diffVariable (expected found : String)
  | atLeastArgument
  | fromArgument
  | unknownPredicate (text : String)
  | emptyRule
  | differentArguments (count : Nat)
  | unknownRule (text : String)
  | malformedTarget (text : String)
  | foreignTarget (text variableName : String)
  | emptyConditional
  deriving Repr, DecidableEq

/-- The text of a fault in a rule. -/
def RuleFault.message : RuleFault → String
  | .emptyExpr => "empty expression"
  | .missingOperand operator text =>
      "operator '" ++ operator.toString ++ "' is missing an operand in '" ++ text ++ "'"
  | .valueFromArgument text =>
      "value_from expects one integer process id, got '" ++ text ++ "'"
  | .otherVariable expected found =>
      "received_other expects '" ++ expected ++ "', got '" ++ found ++ "'"
  | .undeclared name => "undeclared identifier '" ++ name ++ "'; declare it in PARAMETERS"
  | .unknownToken text => "unknown token '" ++ text ++ "' in expression"
  | .emptySender text => "empty process id in '" ++ text ++ "'"
  | .process place id limit =>
      place ++ ": process id " ++ toString id ++ " must be between 1 and " ++
        match limit with
        | some count => toString count
        | none => "N"
  | .unknownSource text how =>
      "unknown aggregation source '" ++ text ++ "' for " ++ how.word ++
        "; expected inbox, all, values, inbox_from(...) or all_from(...)"
  | .emptyPredicate => "empty predicate"
  | .diffVariable expected found =>
      "received_diff expects '" ++ expected ++ "', got '" ++ found ++ "'"
  | .atLeastArgument =>
      "received_at_least requires an integer literal, e.g. received_at_least(2)"
  | .fromArgument => "received_from requires a process id, e.g. received_from(1)"
  | .unknownPredicate text => "invalid inbox predicate '" ++ text ++ "'"
  | .emptyRule => "empty update rule"
  | .differentArguments count =>
      "IF_RECEIVED_DIFF_THEN expects 2 arguments, got " ++ toString count
  | .unknownRule text => "unrecognized update rule '" ++ text ++ "'"
  | .malformedTarget text => "invalid assignment target '" ++ text ++ "'"
  | .foreignTarget text variableName =>
      "assignment target '" ++ text ++ "' is not the state variable '" ++ variableName ++ "'"
  | .emptyConditional => "conditional requires a rule after 'then'"

/-- A word or a number that stands where it may but cannot be converted. -/
inductive ConversionFault
  | aggregation (name : String)
  | integer (error : Decimal.IntegerError)
  deriving Repr, DecidableEq

/-- The text of a conversion fault. -/
def ConversionFault.message : ConversionFault → String
  | .aggregation name => Text.quote name ++ " is not a valid AggregateOp"
  | .integer error => error.message

/-- Why a rule cannot be read: its grammar or a conversion. -/
inductive RuleError
  | refused (fault : RuleFault)
  | unconvertible (fault : ConversionFault)
  deriving Repr, DecidableEq

/-- Why the text of a protocol is refused. -/
inductive ProtocolFault
  | rule (fault : RuleFault)
  | declaration (fault : DeclarationError)
  | emptyText
  | expectedName (found : String)
  | expectedProcesses (found : Option String)
  | noProcesses
  | expectedSection (pattern : String) (found : Option String)
  | stateCount
  | malformedState (text : String)
  | duplicateSection (name : String)
  | twoInitials
  | expectedInitial (found : Option String)
  | malformedParameter (text : String)
  | malformedNumber (text name : String)
  | valuesCount
  | expectedList (found : String)
  | malformedValues (found : String)
  | valuesLength (found : Nat) (expected : Nat)
  | initialCount
  | expectedInitialRule (variableName found : String)
  | initialForm
  | emptySection (name : String)
  | extraContent (text name : String)
  | unknownChannel (text : String)
  | majorityAlone
  | unknownGuarantee (text : String)
  | expectedLeader
  | leaderRange (limit : Nat)
  | modelProcess (id limit : Nat)
  | duplicateModel (process : Option Nat)
  | guaranteedCount
  | unknownScope (text : String)
  | unknownProbability (text : String)
  | unknownModel (text : String)
  | unknownMetric (name : String)
  | unexpectedContent (text : String)
  | secondEnd
  | missingRule (header : String)
  | untilWhat
  | malformedPhase (text : String)
  | strayKeyword (text : String)
  | expectedThen
  | emptyElse
  deriving Repr, DecidableEq

/-- What was found in the place of something else, if anything. -/
private def foundText (found : Option String) : String :=
  match found with
  | some text => ", found '" ++ text ++ "'"
  | none => ""

/-- The text of a fault in a protocol text. -/
def ProtocolFault.message : ProtocolFault → String
  | .rule fault => fault.message
  | .declaration fault => fault.message
  | .emptyText => "empty protocol text; expected 'PROTOCOL <name>'"
  | .expectedName found => "expected 'PROTOCOL <name>', found '" ++ found ++ "'"
  | .expectedProcesses found => "expected 'PROCESSES: <n>'" ++ foundText found
  | .noProcesses => "PROCESSES must be a positive integer"
  | .expectedSection pattern found =>
      "expected '" ++ pattern ++ "'" ++
        match found with
        | some text => ", found '" ++ text ++ "'"
        | none => ", found end of input"
  | .stateCount => "STATE must declare exactly one variable, e.g. 'x ∈ \x7b0,1\x7d'"
  | .malformedState text => "invalid state declaration '" ++ text ++ "'"
  | .duplicateSection name => "duplicate " ++ name ++ " section"
  | .twoInitials => "only one of INITIAL VALUES or INITIAL may be given"
  | .expectedInitial found => "expected 'INITIAL VALUES:' or 'INITIAL:'" ++ foundText found
  | .malformedParameter text =>
      "invalid parameter '" ++ text ++ "'; expected 'name = value' or 'name ∈ [a,b] = value'"
  | .malformedNumber text name => "invalid number '" ++ text ++ "' for parameter " ++ name
  | .valuesCount => "INITIAL VALUES expects one list, e.g. '[0, 1]'"
  | .expectedList found => "expected a list '[v1, v2, ...]', found '" ++ found ++ "'"
  | .malformedValues found => "INITIAL VALUES must be numbers, found '" ++ found ++ "'"
  | .valuesLength found expected =>
      "INITIAL VALUES has " ++ toString found ++ " entries but PROCESSES is " ++ toString expected
  | .initialCount => "INITIAL expects one rule, e.g. 'xᵢ = i / 2'"
  | .expectedInitialRule variableName found =>
      "expected '" ++ variableName ++ "ᵢ = <expression>', found '" ++ found ++ "'"
  | .initialForm => "INITIAL may only use numbers, parameters and i"
  | .emptySection name => name ++ " section is empty"
  | .extraContent text name => "unexpected content '" ++ text ++ "' in " ++ name
  | .unknownChannel text =>
      "unknown channel '" ++ text ++ "'; expected 'stochastic [with guarantee ...]'"
  | .majorityAlone => "majority guarantee requires at least 2 processes"
  | .unknownGuarantee text => "unsupported channel guarantee '" ++ text ++ "'"
  | .expectedLeader => "expected 'leader = <int>' in ROLES"
  | .leaderRange limit => "leader must be between 1 and " ++ toString limit
  | .modelProcess id limit =>
      "process id " ++ toString id ++ " must be between 1 and " ++ toString limit
  | .duplicateModel process =>
      "duplicate " ++
        match process with
        | some id => "model for process " ++ toString id
        | none => "global model"
  | .guaranteedCount => "guaranteed model requires 'k=<int>'"
  | .unknownScope text => "invalid scope '" ++ text ++ "'; expected per_round or total"
  | .unknownProbability text =>
      "invalid probability mode '" ++ text ++ "'; expected per_source or uniform"
  | .unknownModel text =>
      "unknown delivery model '" ++ text ++ "'; expected standard, guaranteed or broadcast"
  | .unknownMetric name => "unknown metric '" ++ name ++ "'; expected discrepancy or consensus"
  | .unexpectedContent text => "unexpected content '" ++ text ++ "'"
  | .secondEnd => "END phase already defined; only one END phase is allowed"
  | .missingRule header => "phase '" ++ header ++ "' must be followed by a rule"
  | .untilWhat => "UNTIL only supports CONSENSUS"
  | .malformedPhase text => "invalid phase header '" ++ text ++ "'"
  | .strayKeyword text => "unexpected '" ++ text ++ "' without a matching 'if'"
  | .expectedThen => "expected 'if <predicate> then'"
  | .emptyElse => "else branch requires a rule"

/-- Why a protocol text cannot be read: its grammar, at a line where there is
one, or a conversion. -/
inductive ParseError
  | refused (line : Option Int) (fault : ProtocolFault)
  | unconvertible (fault : ConversionFault)
  deriving Repr, DecidableEq

/-- A message with the line it belongs to. -/
def atLine (line : Option Int) (message : String) : String :=
  match line with
  | some number => "line " ++ toString number ++ ": " ++ message
  | none => message

/-- The text of a parse error. -/
def ParseError.message : ParseError → String
  | .refused line fault => atLine line fault.message
  | .unconvertible fault => fault.message

/-- A fault in a rule, at the line on which the rule stands. -/
def RuleError.at (line : Option Int) : RuleError → ParseError
  | .refused fault => .refused line (.rule fault)
  | .unconvertible fault => .unconvertible fault

end LossyConsensus.Source
