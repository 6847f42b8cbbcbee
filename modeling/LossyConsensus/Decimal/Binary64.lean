/-
# Double-precision numbers as exact quantities

A finite double is a sign and a natural number times a power of two.  The
decimal printers work on this exact value, never on rounded arithmetic.
-/

namespace LossyConsensus.Decimal

-- Powers are those of the core library, whatever algebra is imported beside it.
attribute [local instance (2000)] instPowNat

/-- What the bits of a double denote: a signed `significand * 2 ^ exponent`, a
signed infinity, or no number. -/
inductive Binary64
  | finite (negative : Bool) (significand : Nat) (exponent : Int)
  | infinite (negative : Bool)
  | notANumber
  deriving Repr, DecidableEq

namespace Binary64

/-- Read the sign, exponent and fraction fields of a word. -/
def ofBits (word : Nat) : Binary64 :=
  let negative := word / 2 ^ (63 : Nat) % 2 == 1
  let field : Nat := word / 2 ^ (52 : Nat) % 2 ^ (11 : Nat)
  let fraction : Nat := word % 2 ^ (52 : Nat)
  if field == 2047 then
    if fraction == 0 then .infinite negative else .notANumber
  else if field == 0 then .finite negative fraction (-1074)
  else .finite negative (2 ^ (52 : Nat) + fraction) ((field : Int) - 1075)

/-- The exact value of a double. -/
def ofFloat (value : Float) : Binary64 :=
  ofBits value.toBits.toNat

end Binary64

/-- The quotient of naturals rounded to the nearest natural, a half going to
the even neighbour. -/
def roundDiv (num den : Nat) : Nat :=
  let low := num / den
  let twice := 2 * (num % den)
  if twice < den then low
  else if den < twice then low + 1
  else if low % 2 == 0 then low else low + 1

/-- The numerator and the denominator of `significand * 2 ^ exponent`. -/
def ratio (significand : Nat) (exponent : Int) : Nat × Nat :=
  if 0 ≤ exponent then (significand * 2 ^ exponent.toNat, 1)
  else (significand, 2 ^ (-exponent).toNat)

/-- Whether `10 ^ place` is at most `num / den`. -/
def powerAtMost (place : Int) (num den : Nat) : Bool :=
  if 0 ≤ place then 10 ^ place.toNat * den ≤ num else den ≤ num * 10 ^ (-place).toNat

/-- The exponent of the leading decimal digit of the positive quotient
`num / den`.  The binary logarithms give an estimate that is at most one
off in either direction. -/
def leadingPlace (num den : Nat) : Int :=
  let binary : Int := (num.log2 : Int) - (den.log2 : Int)
  let estimate := Int.fdiv (binary * 30103) 100000
  if powerAtMost (estimate + 1) num den then estimate + 1
  else if powerAtMost estimate num den then estimate
  else estimate - 1

/-- The quotient `num / den` in units of `10 ^ place`, as a numerator and a
denominator. -/
def inUnits (place : Int) (num den : Nat) : Nat × Nat :=
  if 0 ≤ place then (num, den * 10 ^ place.toNat) else (num * 10 ^ (-place).toNat, den)

end LossyConsensus.Decimal
