/-
# Shortest decimals

The decimal with the fewest significant digits that reads back as a given
double, and of those the nearest to it.  A decimal reads back as a double when
it lies in the interval of reals that round to the double; the ends belong to
the interval exactly when the significand is even.

The text of a real writes this decimal in positional notation when the exponent
of its leading digit is at least -4 and below 16, with at least one digit on
either side of the point; otherwise as one digit, the remaining digits after a
point, and an exponent with a sign and at least two digits.
-/

import LossyConsensus.Decimal.Binary64

namespace LossyConsensus.Decimal

-- Powers are those of the core library, whatever algebra is imported beside it.
attribute [local instance (2000)] instPowNat

/-- The reals that round to a double, as bounds in quarters of
`2 ^ exponent`. -/
structure Rounding where
  low : Nat
  mid : Nat
  high : Nat
  closed : Bool
  exponent : Int

/-- The rounding interval of `significand * 2 ^ exponent`.  Below a power of
two the neighbouring double is only half as far away. -/
def Rounding.of (significand : Nat) (exponent : Int) : Rounding :=
  let mid := 4 * significand
  let gap := if significand == 2 ^ (52 : Nat) && exponent != -1074 then 1 else 2
  { low := mid - gap, mid, high := mid + 2, closed := significand % 2 == 0,
    exponent := exponent - 2 }

/-- Whether `digits * 10 ^ place` rounds to the double. -/
def Rounding.admits (r : Rounding) (digits : Nat) (place : Int) : Bool :=
  let (lowNum, lowDen) := ratio r.low r.exponent
  let (highNum, highDen) := ratio r.high r.exponent
  let (lowNum, lowDen) := inUnits place lowNum lowDen
  let (highNum, highDen) := inUnits place highNum highDen
  if r.closed then lowNum ≤ digits * lowDen && digits * highDen ≤ highNum
  else lowNum < digits * lowDen && digits * highDen < highNum

/-- The decimal on the grid of `10 ^ place` that is nearest to the double among
the two neighbours of the double that round to it, if there is one. -/
def Rounding.onGrid? (r : Rounding) (place : Int) : Option Nat :=
  let (num, den) := ratio r.mid r.exponent
  let (num, den) := inUnits place num den
  let below := num / den
  match r.admits below place, r.admits (below + 1) place with
  | true, true => some (roundDiv num den)
  | true, false => some below
  | false, true => some (below + 1)
  | false, false => none

/-- Remove trailing zeros from a numeral, raising its place; `fuel` bounds the
number of zeros removed. -/
def dropZeros : Nat → Nat → Int → Nat × Int
  | 0, digits, place => (digits, place)
  | fuel + 1, digits, place =>
      if digits != 0 && digits % 10 == 0 then dropZeros fuel (digits / 10) (place + 1)
      else (digits, place)

/-- The shortest decimal of a positive double, as digits and the place of the
last one.  Seventeen significant digits always suffice. -/
def shortest (significand : Nat) (exponent : Int) : Nat × Int :=
  let r := Rounding.of significand exponent
  let (num, den) := ratio significand exponent
  let top := leadingPlace num den
  let found := (List.range 17).findSome? fun (k : Nat) =>
    let place := top - (k : Int)
    (r.onGrid? place).map fun digits => (digits, place)
  match found with
  | some (digits, place) => dropZeros 20 digits place
  | none => (significand, exponent)

/-- The decimal numeral of a natural number. -/
def naturalText (n : Nat) : List Char :=
  Nat.toDigits 10 n

/-- The decimal numeral of an integer. -/
def integerText (n : Int) : List Char :=
  if n < 0 then '-' :: naturalText n.natAbs else naturalText n.natAbs

/-- An exponent with its sign and at least two digits. -/
def exponentText (exponent : Int) : List Char :=
  let digits := naturalText exponent.natAbs
  let padded := if digits.length < 2 then '0' :: digits else digits
  'e' :: (if exponent < 0 then '-' else '+') :: padded

/-- A decimal in positional notation, the last digit standing at `place`. -/
def positionalText (digits : List Char) (place : Int) : List Char :=
  if 0 ≤ place then digits ++ List.replicate place.toNat '0' ++ ['.', '0']
  else
    let fraction := (-place).toNat
    let padded := List.replicate (fraction + 1 - digits.length) '0' ++ digits
    padded.take (padded.length - fraction) ++ '.' :: padded.drop (padded.length - fraction)

/-- A decimal as one digit, further digits after a point, and an exponent. -/
def scientificText (digits : List Char) (exponent : Int) : List Char :=
  match digits with
  | [] => []
  | [d] => d :: exponentText exponent
  | d :: rest => d :: '.' :: rest ++ exponentText exponent

/-- The shortest text of a positive double. -/
def shortestText (significand : Nat) (exponent : Int) : List Char :=
  let (digits, place) := shortest significand exponent
  let text := naturalText digits
  let leading := place + (text.length : Int) - 1
  if -4 ≤ leading && leading < 16 then positionalText text place
  else scientificText text leading

/-- The minus sign of a negative number. -/
def signText (negative : Bool) : List Char :=
  if negative then ['-'] else []

/-- The text of a real: its shortest decimal, `inf`, `-inf` or `nan`. -/
def realChars (value : Float) : List Char :=
  match Binary64.ofFloat value with
  | .notANumber => ['n', 'a', 'n']
  | .infinite negative => signText negative ++ ['i', 'n', 'f']
  | .finite negative significand exponent =>
      signText negative ++
        (if significand == 0 then ['0', '.', '0'] else shortestText significand exponent)

/-- The text of a real as a string. -/
def realText (value : Float) : String :=
  String.ofList (realChars value)

end LossyConsensus.Decimal
