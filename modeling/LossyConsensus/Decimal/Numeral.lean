/-
# Reading reals

A numeral is an optional sign, digits with an optional point among, before or
after them, and an optional exponent; the digits may be of any script.  Its
value is the double nearest to the decimal it denotes, infinity when that
exceeds the range.  The wider form admits surrounding blanks, single
underscores between digits, and the names of infinity and of no number.
-/

import LossyConsensus.Text.Blank
import LossyConsensus.Text.Letter

namespace LossyConsensus.Decimal

open LossyConsensus.Text

/-- A decimal in its parts: the sign, the digits before and after the point,
and the exponent. -/
structure Numeral where
  negative : Bool
  whole : List Char
  fraction : List Char
  exponent : Int

/-- The nearest double of `mantissa * 10 ^ exponent`, where the mantissa has
`size` digits.  An exponent that puts the leading digit far outside the range
of doubles is settled without computing the power. -/
def nearest (mantissa size : Nat) (exponent : Int) : Float :=
  if mantissa == 0 then 0.0
  else if 400 < exponent + (size : Int) then 1.0 / 0.0
  else if exponent + (size : Int) < -400 then 0.0
  else Float.ofScientific mantissa (exponent < 0) exponent.natAbs

/-- The double that a numeral denotes. -/
def Numeral.value (n : Numeral) : Float :=
  let digits := n.whole ++ n.fraction
  let mantissa := digitsValue digits
  let size := (Nat.toDigits 10 mantissa).length
  let magnitude := nearest mantissa size (n.exponent - (n.fraction.length : Int))
  if n.negative then -magnitude else magnitude

/-- The exponent that ends a numeral: nothing, or an `e`, an optional sign and
at least one digit. -/
def readExponent? (text : List Char) : Option Int :=
  match text with
  | [] => some 0
  | mark :: rest =>
      if mark == 'e' || mark == 'E' then
        let (negative, digits) := match rest with
          | '-' :: digits => (true, digits)
          | '+' :: digits => (false, digits)
          | digits => (false, digits)
        if !digits.isEmpty && digits.all isDigit then
          let n : Int := digitsValue digits
          some (if negative then -n else n)
        else none
      else none

/-- The digits, point and exponent of a numeral without its sign. -/
def readMagnitude? (negative : Bool) (text : List Char) : Option Numeral :=
  let whole := text.takeWhile isDigit
  match text.dropWhile isDigit with
  | '.' :: rest =>
      let fraction := rest.takeWhile isDigit
      if whole.isEmpty && fraction.isEmpty then none
      else (readExponent? (rest.dropWhile isDigit)).map fun exponent =>
        { negative, whole, fraction, exponent }
  | rest =>
      if whole.isEmpty then none
      else (readExponent? rest).map fun exponent =>
        { negative, whole, fraction := [], exponent }

/-- A numeral with an optional minus sign, as a rule's literal is written. -/
def readLiteral? (text : List Char) : Option Numeral :=
  match text with
  | '-' :: rest => readMagnitude? true rest
  | _ => readMagnitude? false text

/-- A text without its underscores, if each of them stands between digits;
`previous` is the character before the text. -/
def joinDigits? (previous : Option Char) : List Char → Option (List Char)
  | [] => some []
  | '_' :: rest =>
      if previous.any isDigit && rest.head?.any isDigit then
        joinDigits? (some '_') rest
      else none
  | c :: rest => (joinDigits? (some c) rest).map (c :: ·)

/-- The value of a text that writes a real, surrounding blanks included. -/
def readReal? (text : List Char) : Option Float :=
  let text := trimNumeral text
  let (negative, body) := match text with
    | '-' :: rest => (true, rest)
    | '+' :: rest => (false, rest)
    | _ => (false, text)
  let name := String.ofList (body.map Char.toLower)
  if name == "nan" then some (0.0 / 0.0)
  else if name == "inf" || name == "infinity" then
    some (if negative then -(1.0 / 0.0) else 1.0 / 0.0)
  else do
    let joined ← joinDigits? none body
    let numeral ← readMagnitude? negative joined
    return numeral.value

end LossyConsensus.Decimal
