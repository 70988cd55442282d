import Formulary.Number.Dyadic
/-!
# The shortest decimal of a float

The reals that round to a float form an interval around it: from half way to
the neighbour below to half way to the neighbour above, ends included when
the mantissa is even. Among the decimals in that interval this file picks
the one with the fewest digits, and of those the nearest, the greater of two
that are equally near. All of it happens in whole numbers: `Scaled` holds the
float and the two ends as multiples of one power of ten.
-/

namespace Formulary

/-- A float and the ends of its rounding interval, as multiples of `10 ^ -places`. -/
structure Scaled where
  value : Nat
  low : Nat
  high : Nat
  /-- Whether the ends round to the float. -/
  closed : Bool
  /-- The number of decimal places the multiples stand for. -/
  places : Nat

namespace Scaled

/-- A quarter of the float's unit is a whole number of `10 ^ -places`, so the
float and the two half-way points are too. -/
def ofDyadic (d : Dyadic) : Scaled :=
  let places := (2 - d.exponent).toNat
  let quarter := if places = 0 then twoTo (d.exponent - 2).toNat else Nat.pow 5 places
  { value := 4 * d.mantissa * quarter
    low := (if d.narrowBelow then 4 * d.mantissa - 1 else 4 * d.mantissa - 2) * quarter
    high := (4 * d.mantissa + 2) * quarter
    closed := d.mantissa % 2 == 0
    places := places }

/-- Whether a multiple rounds to the float. -/
def rounds (s : Scaled) (n : Nat) : Bool :=
  if s.closed then s.low ≤ n && n ≤ s.high else s.low < n && n < s.high

/-- The nearer of the two neighbours of the value on a grid that round to it,
the upper one on a tie. -/
def onGrid? (s : Scaled) (grid : Nat) : Option Nat :=
  let below := s.value / grid * grid
  let above := below + grid
  match s.rounds below, s.rounds above with
  | true, true => some (if above - s.value ≤ s.value - below then above else below)
  | true, false => some below
  | false, true => some above
  | false, false => none

/-- The coarsest hit on the grids of `10 ^ zeros` and below. The grid of one
always has the value itself. -/
def coarsest (s : Scaled) : Nat → Nat
  | 0 => s.value
  | zeros + 1 => (s.onGrid? (tenTo (zeros + 1))).getD (s.coarsest zeros)

/-- The multiple with the fewest significant digits that rounds to the float. -/
def shortest (s : Scaled) : Nat :=
  s.coarsest ((Nat.toDigits 10 s.value).length - 1)

end Scaled

end Formulary
