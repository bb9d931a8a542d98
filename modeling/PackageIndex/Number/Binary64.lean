/-!
# Sixty-Four-Bit Binary Numbers

Times are binary floating-point numbers of sixty-four bits, and everything
this library does with them — reading, writing, scaling to microseconds — has
to come out to the last bit. So a number is kept as what it is, an exact
rational with a rank among all the others, and every operation is exact
integer arithmetic followed by one rounding.

The finite magnitudes are numbered in ascending order, from zero at rank zero,
and each of them is a whole multiple of the least positive one, the unit. The
ranks come in runs of `2 ^ 52`: over the first two runs the units count up one
by one, and over every later run twice as fast as over the run before
(`unitsOfRank`). Equality, order, and the neighbours of a magnitude are those
of its rank.

Rounding picks the nearest magnitude, and of two that are equally near the one
of even rank. It needs no case for a carry into the next run, because the rank
that the carry gives is the right one.

## Main definitions

* `Magnitude`: A finite magnitude, by its rank.
* `Magnitude.units`: The magnitude as a multiple of the unit.
* `Magnitude.nearest`: The magnitude nearest to a ratio of units.
* `Binary64`: A magnitude with a sign, an infinity, or not a number.
* `Binary64.le`: The order, in which not a number takes no part.
-/

namespace PackageIndex

/-- The unit is two to the power of minus this exponent. -/
def unitExponent : Nat := 1074

/-- How many units make one. -/
def unitsOfOne : Nat := Nat.pow 2 unitExponent

/-- How many ranks there are in a run. -/
def runLength : Nat := Nat.pow 2 52

/-- The quotient rounded to the nearest whole number, a half to the even
    one. -/
def roundDiv (n d : Nat) : Nat :=
  let q := n / d
  match compare (2 * (n % d)) d with
  | .lt => q
  | .gt => q + 1
  | .eq => q + q % 2

/-- The units of the magnitude at a rank. The rank just above the last finite
    one has units too, which is where the last one's upper neighbour would
    be. -/
def unitsOfRank (rank : Nat) : Nat :=
  let doublings := rank / runLength - 1
  (rank - doublings * runLength) * Nat.pow 2 doublings

/-- A finite magnitude, by its rank among all of them. -/
structure Magnitude where
  rank : Nat
  rank_lt : rank < 2047 * runLength
  deriving DecidableEq

namespace Magnitude

/-- Zero. -/
def zero : Magnitude := ⟨0, by decide⟩

/-- The magnitude as a multiple of the unit. -/
def units (m : Magnitude) : Nat := unitsOfRank m.rank

/-- The magnitude nearest to `n / d` units, of two that are equally near the
    one of even rank. There is none if that is too large to be finite. -/
def nearest (n d : Nat) : Option Magnitude :=
  let doublings := (n / d).log2 - 52
  let rank := doublings * runLength + roundDiv n (d * Nat.pow 2 doublings)
  if h : rank < 2047 * runLength then some ⟨rank, h⟩ else none

/-- The magnitude nearest to a natural number. -/
def ofNat (n : Nat) : Option Magnitude := nearest (n * unitsOfOne) 1

/-- The magnitude nearest to a product. -/
def mul (a b : Magnitude) : Option Magnitude := nearest (a.units * b.units) unitsOfOne

/-- The magnitude nearest to a quotient. -/
def div (a b : Magnitude) : Option Magnitude := nearest (a.units * unitsOfOne) b.units

end Magnitude

/-- A number of sixty-four bits: a magnitude with a sign, an infinity, or not
    a number. Zero has two signs. -/
inductive Binary64 where
  | nan
  | infinite (negative : Bool)
  | finite (negative : Bool) (magnitude : Magnitude)
  deriving DecidableEq

namespace Binary64

/-- A finite number. -/
def isFinite : Binary64 → Bool
  | .finite _ _ => true
  | _ => false

/-- A signed number of units. -/
def signed (negative : Bool) (units : Nat) : Int := if negative then -units else units

/-- The number nearest to `n / d` units with a sign, infinite if that is too
    large. -/
def nearest (negative : Bool) (n d : Nat) : Binary64 :=
  (Magnitude.nearest n d).elim (.infinite negative) (.finite negative)

/-- The number nearest to a number times a natural number that is not
    zero. -/
def scale (x : Binary64) (k : Nat) : Binary64 :=
  match x with
  | .finite negative m => nearest negative (m.units * k) 1
  | other => other

/-- The whole number nearest to a finite number, a half away from zero. -/
def round (negative : Bool) (m : Magnitude) : Int :=
  signed negative ((2 * m.units + unitsOfOne) / (2 * unitsOfOne))

/-- Whether a number is at most another. Not a number is neither at most nor
    at least anything, and the two zeros are equal. -/
def le : Binary64 → Binary64 → Bool
  | .nan, _ => false
  | _, .nan => false
  | .infinite true, _ => true
  | _, .infinite false => true
  | .infinite false, _ => false
  | _, .infinite true => false
  | .finite s m, .finite t n => signed s m.units ≤ signed t n.units

end Binary64

end PackageIndex
