import PackageIndex.Calendar
import PackageIndex.Number.Layout

/-!
# Revisions

A revision of a package has an identifier and the time it was recorded, in
seconds from the beginning of 1970.

A time denotes an instant in whole microseconds. The seconds are multiplied
first and rounded to a number of sixty-four bits, and then rounded to a whole
number, a half away from zero; what lies beyond the signed whole numbers of
sixty-four bits is taken to the nearest of them, and what is not a number is
taken to zero. An instant has a date only within some quarter of a million
years.

## Main definitions

* `Revision`: An identifier and a time.
* `Revision.micros`: The instant a time denotes.
* `Revision.timeOfMicros`: The time at an instant.
* `Revision.iso?`: The date and time of that instant.
* `Revision.listed`: A revision as a line of a listing.
-/

namespace PackageIndex

/-- A revision of a package, with the time it was recorded. -/
structure Revision where
  id : Text
  /-- Seconds from the beginning of 1970. -/
  time : Binary64
  deriving DecidableEq

namespace Revision

/-- The least and the greatest whole number of sixty-four bits with a sign. -/
def limits : Int × Int := (-9223372036854775808, 9223372036854775807)

/-- The nearest whole number that fits sixty-four bits with a sign. -/
def saturate (n : Int) : Int := max limits.1 (min n limits.2)

/-- The instant a time denotes, in microseconds. -/
def microsOf (time : Binary64) : Int :=
  match time.scale 1000000 with
  | .nan => 0
  | .infinite negative => if negative then limits.1 else limits.2
  | .finite negative m => saturate (Binary64.round negative m)

/-- The time at an instant after the beginning of 1970, in microseconds. -/
def timeOfMicros (micros : Nat) : Binary64 := .nearest false (micros * unitsOfOne) 1000000

/-- The instant at which a revision was recorded, in microseconds. -/
def micros (r : Revision) : Int := microsOf r.time

/-- The first and the last microsecond that has a date: from the beginning of
    the year -262143 to the end of the year 262142. -/
def dated : Int × Int := (-8334601228800 * 1000000, 8210266876800 * 1000000 - 1)

/-- The instant at which a revision was recorded, if it has a date. -/
def instant? (r : Revision) : Option Int :=
  if dated.1 ≤ r.micros ∧ r.micros ≤ dated.2 then some r.micros else none

/-- The date and time of a revision. What is over a whole second is dropped
    towards the past. -/
def iso? (r : Revision) : Option Text :=
  r.instant?.map fun micros => (DateTime.ofSeconds (micros / 1000000)).write

/-- How listings write a time that has no date: all digits in place, and no
    point behind a whole number. -/
def listing : Layout where
  tie := .away
  inPlace := fun _ => true
  whole := []

/-- A revision as a line of a listing. -/
def listed (r : Revision) : Text :=
  r.id ++ ['\t'] ++ r.iso?.getD (listing.write r.time)

end Revision

end PackageIndex
