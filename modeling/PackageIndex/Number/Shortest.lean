import PackageIndex.Number.Binary64

/-!
# Shortest Decimals

The decimal written for a number is the shortest one that still identifies it,
and of several that short the one nearest to it.

What identifies a magnitude is the interval of reals that round to it: from
halfway to the magnitude below to halfway to the magnitude above, with the
ends if and only if its rank is even, since that is where ties go. Every
magnitude, and every halfway point doubled, is a whole number when counted in
the last decimal place a magnitude can need, so the whole search is about
natural numbers.

The search goes through the decimal places from the left. At each place there
is one point of the grid at or below the magnitude and one above it; if any
point of the grid lies in the interval, one of these two does. The first place
with a hit gives the fewest digits, and of two hits the nearer is taken. Two
hits may be equally near, and then it is up to the notation which is written.
At the last place the magnitude is a point of the grid itself, so the search
always ends with a hit.

## Main definitions

* `Decimal`: Digits and the place of the last one.
* `Magnitude.identifiedBy`: Whether a decimal rounds to a magnitude.
* `Magnitude.shortest`: The shortest decimal that identifies a magnitude.
-/

namespace PackageIndex

/-- A decimal: a whole number of units in a decimal place. The places are
    counted from the last one that is ever needed. -/
structure Decimal where
  digits : Nat
  place : Nat
  deriving DecidableEq

/-- Where a decimal equally near to two points of a grid goes. -/
inductive Tie where
  /-- To the point whose last digit is even. -/
  | even
  /-- To the point farther from zero. -/
  | away
  deriving DecidableEq

namespace Tie

/-- The point that is chosen of a point and its successor. -/
def choose : Tie → Nat → Nat
  | .even, d => d + d % 2
  | .away, d => d + 1

end Tie

namespace Magnitude

/-- The unit, counted in the last decimal place that a magnitude can need. -/
def placesOfUnit : Nat := Nat.pow 5 unitExponent

/-- A magnitude counted in the last decimal place that a magnitude can
    need. -/
def places (m : Magnitude) : Nat := m.units * placesOfUnit

/-- Whether a real, counted in the last decimal place, rounds to a magnitude:
    whether its double lies between the magnitude's sums with its two
    neighbours. -/
def identifiedBy (m : Magnitude) (x : Nat) : Bool :=
  let lower := (unitsOfRank (m.rank - 1) + unitsOfRank m.rank) * placesOfUnit
  let upper := (unitsOfRank m.rank + unitsOfRank (m.rank + 1)) * placesOfUnit
  if m.rank % 2 = 0 then lower ≤ 2 * x && 2 * x ≤ upper else lower < 2 * x && 2 * x < upper

/-- The first decimal that identifies a magnitude, from a place on to the
    last. -/
def search (tie : Tie) (m : Magnitude) : Nat → Decimal
  | 0 => ⟨m.places, 0⟩
  | place + 1 =>
    let grid := Nat.pow 10 (place + 1)
    let d := m.places / grid
    match m.identifiedBy (d * grid), m.identifiedBy ((d + 1) * grid) with
    | false, false => search tie m place
    | true, false => ⟨d, place + 1⟩
    | false, true => ⟨d + 1, place + 1⟩
    | true, true =>
      match compare (2 * (m.places % grid)) grid with
      | .lt => ⟨d, place + 1⟩
      | .gt => ⟨d + 1, place + 1⟩
      | .eq => ⟨tie.choose d, place + 1⟩

/-- The shortest decimal that identifies a magnitude, and the nearest to it of
    that length. The search starts at a place beyond the first digit, because
    `2 ^ 93` is less than `10 ^ 28`. -/
def shortest (tie : Tie) (m : Magnitude) : Decimal :=
  if m.rank = 0 then ⟨0, unitExponent⟩ else search tie m (m.places.log2 * 28 / 93 + 2)

end Magnitude

end PackageIndex
