/-
# Decimals of a given precision

A real with a fixed number of decimal places, with a number of significant
digits, and as a percentage.  Rounding is to nearest on the exact binary value,
a half going to the even neighbour; numbers that are not finite are written
`nan`, `inf` and `-inf`.
-/

import LossyConsensus.Decimal.Shortest

namespace LossyConsensus.Decimal

-- Powers are those of the core library, whatever algebra is imported beside it.
attribute [local instance (2000)] instPowNat

/-- A numeral of `digits` units of the last of `places` decimal places. -/
def placesText (places digits : Nat) : List Char :=
  let text := naturalText digits
  if places == 0 then text
  else
    let padded := List.replicate (places + 1 - text.length) '0' ++ text
    padded.take (padded.length - places) ++ '.' :: padded.drop (padded.length - places)

/-- The multiple of `10 ^ -places` that is nearest to a double's magnitude, in
these units. -/
def unitsAt (places significand : Nat) (exponent : Int) : Nat :=
  let (num, den) := ratio significand exponent
  roundDiv (num * 10 ^ places) den

/-- A real with exactly `places` digits after the point. -/
def fixedChars (places : Nat) (value : Float) : List Char :=
  match Binary64.ofFloat value with
  | .notANumber => ['n', 'a', 'n']
  | .infinite negative => signText negative ++ ['i', 'n', 'f']
  | .finite negative significand exponent =>
      signText negative ++ placesText places (unitsAt places significand exponent)

/-- A real with exactly `places` digits after the point, as a string. -/
def fixed (places : Nat) (value : Float) : String :=
  String.ofList (fixedChars places value)

/-- A real as a whole percentage. -/
def percent (value : Float) : String :=
  fixed 0 (value * 100.0) ++ "%"

/-- A positive quotient rounded to `precision` significant digits: the digits,
exactly `precision` of them, and the exponent of the leading one. -/
def significant (precision num den : Nat) : Nat × Int :=
  let top := leadingPlace num den
  let place := top - ((precision : Int) - 1)
  let (num, den) := inUnits place num den
  let digits := roundDiv num den
  if digits == 10 ^ precision then (digits / 10, top + 1) else (digits, top)

/-- Remove the zeros that end a fraction, and the point if nothing is left
after it. -/
def dropFractionZeros (text : List Char) : List Char :=
  if text.contains '.' then
    let kept := (text.reverse.dropWhile (· == '0')).reverse
    if kept.getLast? == some '.' then kept.dropLast else kept
  else text

/-- A real with at most `precision` significant digits and no trailing zeros:
positional when the exponent of the leading digit is at least -4 and below
`precision`, otherwise with an exponent. -/
def generalChars (precision : Nat) (value : Float) : List Char :=
  match Binary64.ofFloat value with
  | .notANumber => ['n', 'a', 'n']
  | .infinite negative => signText negative ++ ['i', 'n', 'f']
  | .finite negative significand exponent =>
      if significand == 0 then signText negative ++ ['0']
      else
        let (num, den) := ratio significand exponent
        let (digits, top) := significant precision num den
        if -4 ≤ top && top < (precision : Int) then
          let places := ((precision : Int) - 1 - top).toNat
          signText negative ++ dropFractionZeros (placesText places digits)
        else
          let (digits, _) := dropZeros precision digits 0
          signText negative ++ scientificText (naturalText digits) top

/-- A real with at most `precision` significant digits, as a string. -/
def general (precision : Nat) (value : Float) : String :=
  String.ofList (generalChars precision value)

/-- A finite double rounded to `precision` significant digits. -/
def roundSignificant (precision : Nat) (value : Float) : Float :=
  match Binary64.ofFloat value with
  | .finite negative significand exponent =>
      if significand == 0 then value
      else
        let (num, den) := ratio significand exponent
        let (digits, top) := significant precision num den
        let place := top - ((precision : Int) - 1)
        let magnitude := Float.ofScientific digits (place < 0) place.natAbs
        if negative then -magnitude else magnitude
  | _ => value

/-- A finite double rounded to `places` decimal places. -/
def roundPlaces (places : Nat) (value : Float) : Float :=
  match Binary64.ofFloat value with
  | .finite negative significand exponent =>
      let magnitude := Float.ofScientific (unitsAt places significand exponent) true places
      if negative then -magnitude else magnitude
  | _ => value

end LossyConsensus.Decimal
