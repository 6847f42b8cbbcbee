/-
# Polynomials

Polynomials over doubles by their coefficients, the constant one first, and
quotients of them.  A polynomial of more than four coefficients is evaluated as
one in the even and one in the odd powers, whose roundings do not mix before the
last step.
-/

namespace LossyConsensus.Statistics

/-- The value of a polynomial, multiplied out from the highest coefficient
down. -/
def nested (coefficients : List Float) (x : Float) : Float :=
  coefficients.foldr (fun c value => value * x + c) 0.0

/-- The items at even places of a list, and those at odd places. -/
def alternate : List Float → List Float × List Float
  | [] => ([], [])
  | c :: rest =>
      let (evens, odds) := alternate rest
      (c :: odds, evens)

/-- The value of a polynomial. -/
def polynomial (coefficients : List Float) (x : Float) : Float :=
  if coefficients.length ≤ 4 then nested coefficients x
  else
    let (evens, odds) := alternate coefficients
    let square := x * x
    nested evens square + nested odds square * x

/-- The value of a quotient of polynomials. -/
def rational (numerator denominator : List Float) (x : Float) : Float :=
  polynomial numerator x / polynomial denominator x

/-- The distance from one to the next greater double. -/
def epsilon : Float := 2.220446049250313e-16

/-- The least positive double of full precision. -/
def leastNormal : Float := 2.2250738585072014e-308

/-- The ratio of a circle's circumference to its diameter. -/
def pi : Float := 3.141592653589793

/-- The base of the natural logarithm. -/
def e : Float := 2.718281828459045

end LossyConsensus.Statistics
