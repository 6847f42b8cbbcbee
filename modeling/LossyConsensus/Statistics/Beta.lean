/-
# The incomplete beta integral

The part of the beta integral between zero and a point, over the complete one,
with its derivative there.  One of the two parameters is one half.  Depending on
the parameters it is a power series, or a finite sum followed by an expansion in
incomplete gamma functions.
-/

import LossyConsensus.Statistics.Gamma

namespace LossyConsensus.Statistics

/-- The parameters of an incomplete beta integral, its point `x`, and `y`, which
is one less `x`. -/
structure BetaPoint where
  a : Float
  b : Float
  x : Float
  y : Float

namespace BetaPoint

/-- The integral from the other end. -/
def swap (p : BetaPoint) : BetaPoint :=
  { a := p.b, b := p.a, x := p.y, y := p.x }

/-- The powers of `x` and `y` over the complete beta integral. -/
def powerTerms (p : BetaPoint) : Float :=
  let c := p.a + p.b
  let shift := gammaShift - 0.5
  let aBase := p.a + shift
  let bBase := p.b + shift
  let cBase := c + shift
  let factor := scaledFactor c / (scaledFactor p.a * scaledFactor p.b) *
    Float.sqrt (bBase / e) * Float.sqrt (aBase / cBase)
  let first := ((p.x * p.b - p.y * p.a) - p.y * shift) / aBase
  let second := ((p.y * p.a - p.x * p.b) - p.x * shift) / bBase
  if first.abs < 0.2 || second.abs < 0.2 then
    let power (exponent offset base : Float) : Float :=
      if offset.abs < 0.1 then Float.exp (exponent * logOnePlus offset)
      else Float.pow base exponent
    factor * power p.a first (p.x * cBase / aBase) * power p.b second (p.y * cBase / bBase)
  else factor * (Float.pow (p.x * cBase / aBase) p.a * Float.pow (p.y * cBase / bBase) p.b)

/-- Add the terms of the power series until they no longer matter; `steps`
bounds their number. -/
def seriesTerms (x : Float) : Nat → Float → Float → Float → Float → Float → Float
  | 0, _, _, _, _, sum => sum
  | steps + 1, a, n, rising, coefficient, sum =>
      let term := coefficient / a
      let sum := sum + term
      if epsilon * sum.abs < term.abs then
        seriesTerms x steps (a + 1.0) (n + 1.0) (rising + 1.0) (coefficient * (rising * x / n)) sum
      else sum

/-- The integral by its power series, added to `start`, and the powers over the
complete integral. -/
def series (p : BetaPoint) (start : Float) : Float × Float :=
  let c := p.a + p.b
  let aBase := p.a + gammaShift - 0.5
  let bBase := p.b + gammaShift - 0.5
  let cBase := c + gammaShift - 0.5
  let complete := scaledFactor c / (scaledFactor p.a * scaledFactor p.b) *
    (if p.a * p.b < bBase * 10.0 then Float.exp ((p.b - 0.5) * logOnePlus (p.a / bBase))
      else Float.pow (cBase / bBase) (p.b - 0.5))
  let leading := complete * Float.pow (p.x * cBase / aBase) p.a * Float.sqrt (aBase / e)
  let powers := leading * Float.pow p.y p.b
  if leading < leastNormal then (start, powers)
  else (seriesTerms p.x 10000 p.a 1.0 (1.0 - p.b) leading start, powers)

/-- The difference between the integrals with `a` and with `a + steps`, and the
powers over the complete integral. -/
def finiteSum (p : BetaPoint) (steps : Nat) : Float × Float :=
  let powers := p.powerTerms
  let front := powers / p.a
  if front == 0.0 then (front, powers)
  else
    let (sum, _) := (List.range (steps - 1)).foldl (fun (sum, term) k =>
      let i := Float.ofNat k
      let term := term * ((p.a + p.b + i) * p.x / (p.a + i + 1.0))
      (sum + term, term)) (1.0, 1.0)
    (front * sum, powers)

/-- The factorial of a natural number. -/
def factorial (n : Nat) : Float :=
  Float.ofNat ((List.range n).foldl (fun product k => product * (k + 1)) 1)

/-- Where an expansion in incomplete gamma functions stands: the coefficients so
far, the latest first, the current integral, the power of the logarithm, twice
the index beside `b`, and the sum. -/
structure Expansion where
  coefficients : List Float
  integral : Float
  power : Float
  index : Float
  sum : Float

/-- Coefficient `n` of the expansion. -/
def coefficient (b : Float) (n : Nat) (coefficients : List Float) : Float :=
  let products := ((coefficients.take (n - 1)).zipIdx 1).foldl (fun sum (earlier, m) =>
    sum + (Float.ofNat m * b - Float.ofNat n) * earlier / factorial (2 * m + 1)) 0.0
  products / Float.ofNat n + (b - 1.0) / factorial (2 * n + 1)

/-- Add the terms of the expansion from term `n` on until they no longer
matter; `steps` bounds their number. -/
def expand (b u front half fourth : Float) : Nat → Nat → Expansion → Float
  | 0, _, state => state.sum
  | steps + 1, n, state =>
      let next := coefficient b n state.coefficients
      let integral := (state.index * (state.index + 1.0) * state.integral +
        (u + state.index + 1.0) * state.power) / fourth
      let term := front * next * integral
      let sum := state.sum + term
      if Float.abs (term / epsilon) < sum.abs then sum
      else expand b u front half fourth steps (n + 1)
        { coefficients := next :: state.coefficients
          integral
          power := state.power * half
          index := state.index + 2.0
          sum }

/-- The integral for large `a` by its expansion in incomplete gamma functions,
added to `start`; `b` is one half. -/
def largeFirst (p : BetaPoint) (start : Float) : Float :=
  let t := p.a + (p.b - 1.0) / 2.0
  let logarithm := if p.y < 0.35 then logOnePlus (-p.y) else Float.log p.x
  let u := -t * logarithm
  let front := halfPrefix u
  if front ≤ leastNormal then start
  else
    let factor := front / gammaRatio p.a p.b / Float.pow t p.b
    let integral := upperHalf u / front
    let half := logarithm / 2.0
    expand p.b u factor (half * half) (4.0 * t * t) 49 1
      { coefficients := [1.0]
        integral
        power := 1.0
        index := p.b
        sum := start + factor * integral }

/-- The integral and its derivative, or the rest of the integral if the ends
are exchanged. -/
def ratio (p : BetaPoint) (exchanged : Bool) : Float × Float :=
  let flip (point : BetaPoint × Bool) : BetaPoint × Bool := (point.1.swap, !point.2)
  let signed (exchanged : Bool) (value : Float → Float) : Float :=
    if exchanged then -(value (-1.0)) else value 0.0
  let bySeries (point : BetaPoint × Bool) : Float × Float :=
    (signed point.2 fun start => (point.1.series start).1, (point.1.series 0.0).2)
  let near := if 0.5 < p.x then flip (p, exchanged) else (p, exchanged)
  let (value, powers) :=
    if near.1.b ≤ 1.0 || (near.1.x < 0.1 && Float.pow (near.1.b * near.1.x) near.1.a ≤ 0.7) then
      bySeries near
    else
      let far := flip near
      let point := far.1
      if 0.3 ≤ point.y then bySeries far
      else if 15.0 ≤ point.a then (signed far.2 point.largeFirst, point.powerTerms)
      else
        let (sum, powers) := point.finiteSum 20
        let further := { point with a := point.a + 20.0 }
        (signed far.2 fun start => further.largeFirst (sum + start), powers)
  (value, powers / (near.1.y * near.1.x))

end BetaPoint

end LossyConsensus.Statistics
