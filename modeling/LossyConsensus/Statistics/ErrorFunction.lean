/-
# The complementary error function

The complementary error function of positive numbers and its inverse, each by
quotients of polynomials over a few ranges.
-/

import LossyConsensus.Statistics.Polynomial

namespace LossyConsensus.Statistics

/-- The exponential of minus the square of a positive number.  The square is
corrected by its rounding error, which is exact on the two halves of the
number. -/
def gaussian (x : Float) : Float :=
  let (mantissa, exponent) := Float.frExp x
  let high := Float.scaleB (Float.floor (Float.scaleB mantissa 26)) (exponent - 26)
  let low := x - high
  let square := x * x
  let error := ((high * high - square) + 2.0 * high * low) + low * low
  Float.exp (-square) * Float.exp (-error)

/-- The factor by which the complementary error function differs from the
exponential over the number, from one half on. -/
def erfcFactor (x : Float) : Float :=
  if x < 1.5 then
    0.405935764312744140625 + rational [-0.098090592216281240205, 0.178114665841120341155,
        0.191003695796775433986, 0.0888900368967884466578, 0.0195049001251218801359,
        0.00180424538297014223957]
      [1.0, 1.84759070983002217845, 1.42628004845511324508, 0.578052804889902404909,
        0.12385097467900864233, 0.0113385233577001411017, 3.37511472483094676155e-6] (x - 0.5)
  else if x < 2.5 then
    0.50672817230224609375 + rational [-0.0243500476207698441272, 0.0386540375035707201728,
        0.04394818964209516296, 0.0175679436311802092299, 0.00323962406290842133584,
        0.000235839115596880717416]
      [1.0, 1.53991494948552447182, 0.982403709157920235114, 0.325732924782444448493,
        0.0563921837420478160373, 0.00410369723978904575884] (x - 1.5)
  else if x < 4.5 then
    0.5405750274658203125 + rational [0.00295276716530971662634, 0.0137384425896355332126,
        0.00840807615555585383007, 0.00212825620914618649141, 0.000250269961544794627958,
        0.0000113212406648847561139]
      [1.0, 1.04217814166938418171, 0.442597659481563127003, 0.0958492726301061423444,
        0.0105982906484876531489, 0.000479411269521714493907] (x - 3.5)
  else
    0.5579090118408203125 + rational [0.00628057170626964891937, 0.0175389834052493308818,
        -0.212652252872804219852, -0.687717681153649930619, -2.5518551727311523996,
        -3.22729451764143718517, -2.8175401114513378771]
      [1.0, 2.79257750980575282228, 11.0567237927800161565, 15.930646027911794143,
        22.9367376522880577224, 13.5064170191802889145, 5.48409182238641741584] (1.0 / x)

/-- The complementary error function of a number that is not negative. -/
def erfc (x : Float) : Float :=
  if x < 1e-10 then 1.0 - (x * 1.125 + x * 0.003379167095512573896158903121545171688)
  else if x < 0.5 then
    1.0 - x * (1.044948577880859375 + rational [0.0834305892146531832907,
        -0.338165134459360935041, -0.0509990735146777432841, -0.00772758345802133288487,
        -0.000322780120964605683831]
      [1.0, 0.455004033050794024546, 0.0875222600142252549554, 0.00858571925074406212772,
        0.000370900071787748000569] (x * x))
  else if x < 1.5 then erfcFactor x * (Float.exp (-x * x) / x)
  else if x < 28.0 then erfcFactor x * (gaussian x / x)
  else 0.0

/-- The inverse in the tail, where `x` is the root of the negative logarithm of
the complementary value. -/
def inverseTail (x : Float) : Float :=
  let (offset, correction) :=
    if x < 3.0 then
      (0.807220458984375, rational [-0.131102781679951906451, -0.163794047193317060787,
          0.117030156341995252019, 0.387079738972604337464, 0.337785538912035898924,
          0.142869534408157156766, 0.0290157910005329060432, 0.00214558995388805277169,
          -6.79465575181126350155e-7, 2.85225331782217055858e-8, -6.81149956853776992068e-10]
        [1.0, 3.46625407242567245975, 5.38168345707006855425, 4.77846592945843778382,
          2.59301921623620271374, 0.848854343457902036425, 0.152264338295331783612,
          0.01105924229346489121] (x - 1.125))
    else if x < 6.0 then
      (0.93995571136474609375, rational [-0.0350353787183177984712, -0.00222426529213447927281,
          0.0185573306514231072324, 0.00950804701325919603619, 0.00187123492819559223345,
          0.000157544617424960554631, 4.60469890584317994083e-6, -2.30404776911882601748e-10,
          2.66339227425782031962e-12]
        [1.0, 1.3653349817554063097, 0.762059164553623404043, 0.220091105764131249824,
          0.0341589143670947727934, 0.00263861676657015992959,
          0.0000764675292302794483503] (x - 3.0))
    else
      (0.98362827301025390625, rational [-0.0167431005076633737133, -0.00112951438745580278863,
          0.00105628862152492910091, 0.000209386317487588078668, 0.0000149624783758342370182,
          4.49696789927706453732e-7, 4.62596163522878599135e-9, -2.81128735628831791805e-14,
          9.9055709973310326855e-17]
        [1.0, 0.591429344886417493481, 0.138151865749083321638, 0.0160746087093676504695,
          0.000964011807005165528527, 0.0000275335474764726041141,
          2.82243172016108031869e-7] (x - 6.0))
  offset * x + correction * x

/-- The number whose error function is `p`, where `p` and `q` are not negative
and add up to one. -/
def inverseFrom (p q : Float) : Float :=
  if p ≤ 0.5 then
    let leading := p * (p + 10.0)
    leading * 0.0891314744949340820313 + leading * rational [-0.000508781949658280665617,
        -0.00836874819741736770379, 0.0334806625409744615033, -0.0126926147662974029034,
        -0.0365637971411762664006, 0.0219878681111168899165, 0.00822687874676915743155,
        -0.00538772965071242932965]
      [1.0, -0.970005043303290640362, -1.56574558234175846809, 1.56221558398423026363,
        0.662328840472002992063, -0.71228902341542847553, -0.0527396382340099713954,
        0.0795283687341571680018, -0.00233393759374190016776, 0.000886216390456424707504] p
  else if 0.25 ≤ q then
    Float.sqrt (-2.0 * Float.log q) / (2.249481201171875 + rational [-0.202433508355938759655,
        0.105264680699391713268, 8.37050328343119927838, 17.6447298408374015486,
        -18.8510648058714251895, -44.6382324441786960818, 17.445385985570866523,
        21.1294655448340526258, -3.67192254707729348546]
      [1.0, 6.24264124854247537712, 3.9713437953343869095, -28.6608180499800029974,
        -20.1432634680485188801, 48.5609213108739935468, 10.8268667355460159008,
        -22.6436933413139721736, 1.72114765761200282724] (q - 0.25))
  else inverseTail (Float.sqrt (-(Float.log q)))

/-- The number whose complementary error function is `value`, strictly between
zero and two. -/
def inverseErfc (value : Float) : Float :=
  if 1.0 < value then
    let q := 2.0 - value
    Float.neg (inverseFrom (1.0 - q) q)
  else inverseFrom (1.0 - value) value

end LossyConsensus.Statistics
