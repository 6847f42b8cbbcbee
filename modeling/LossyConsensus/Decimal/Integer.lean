/-
# Reading integers

An unsigned integer is a run of digits of any script, with blanks around it.
The run is limited in length, leading zeros included; a run that is too long is
refused before what follows it is looked at.
-/

import LossyConsensus.Text.Quoted
import LossyConsensus.Text.Scan

namespace LossyConsensus.Decimal

open LossyConsensus.Text

/-- Why a text gives no integer. -/
inductive IntegerError
  | tooLong (digits : Nat)
  | malformed (text : String)
  deriving Repr, DecidableEq

/-- The greatest number of digits that an integer may be written with. -/
def digitLimit : Nat := 4300

/-- How much of a quoted text a message shows, the opening quote included. -/
def shownLength : Nat := 200

/-- The text of a missing integer. -/
def IntegerError.message : IntegerError → String
  | .tooLong digits =>
      "Exceeds the limit (" ++ toString digitLimit ++ " digits) for integer string conversion: " ++
        "value has " ++ toString digits ++
        " digits; use sys.set_int_max_str_digits() to increase the limit"
  | .malformed text =>
      "invalid literal for int() with base 10: " ++
        String.ofList ((quoted text.toList).take shownLength)

/-- The integer that a text writes. -/
def readInteger (text : List Char) : Except IntegerError Nat :=
  let digits := trimNumeral text
  let size := (digits.takeWhile isDigit).length
  if digitLimit < size then .error (.tooLong size)
  else if isNumber digits then .ok (digitsValue digits)
  else .error (.malformed (String.ofList text))

end LossyConsensus.Decimal
