import PackageIndex.Text.Numeral

/-!
# The Calendar

Instants are counted in seconds from the beginning of 1970, and listings show
them as dates of the calendar now in use, carried on without end in both
directions.

A year is taken to begin in March, so that the day which is not in every year
is its last one. Then every cycle is made of shorter ones that are all alike
except that the last may be a day longer: four hundred years of four
centuries, a century of four-year groups, a group of four years. Finding a
date is dividing by the length of the shorter cycle, with the last one taking
the day that is over.

## Main definitions

* `DateTime`: A date and a time of day.
* `DateTime.ofSeconds`: The date and time at a number of seconds.
* `DateTime.write`: A date and time as listings show it.
-/

namespace PackageIndex

/-- A date and a time of day. -/
structure DateTime where
  year : Int
  month : Nat
  day : Nat
  hour : Nat
  minute : Nat
  second : Nat
  deriving DecidableEq

namespace DateTime

/-- The days of the months from March on. February is last, and has the day
    that is not in every year. -/
def monthLengths : List Nat := [31, 30, 31, 30, 31, 31, 30, 31, 30, 31, 31, 29]

/-- The month, as the number of months before it, and the day in it, from the
    day of the year. Days count from zero. -/
def monthAndDay : List Nat → Nat → Nat × Nat
  | [], day => (0, day)
  | length :: others, day =>
    if day < length then (0, day)
    else
      let (month, day) := monthAndDay others (day - length)
      (month + 1, day)

/-- The quotient and the remainder, where the last part takes what is over. -/
def divideAtMost (n length last : Nat) : Nat × Nat :=
  let part := min (n / length) last
  (part, n - part * length)

/-- The day that began 1970, counted from the first of March of year zero. -/
def epochDay : Int := 719468

/-- The days of four hundred years, a century, four years, and a year, each
    without the day that is not in every one of them. -/
def cycleDays : Nat := 146097

/-- The year, month and day on a day counted from the beginning of 1970. -/
def ofDays (days : Int) : Int × Nat × Nat :=
  let n := days + epochDay
  let (century, n') := divideAtMost (n % cycleDays).toNat 36524 3
  let (group, n'') := divideAtMost n' 1461 24
  let (year, dayOfYear) := divideAtMost n'' 365 3
  let (month, day) := monthAndDay monthLengths dayOfYear
  let year := n / cycleDays * 400 + (century * 100 + group * 4 + year : Nat)
  if month < 10 then (year, month + 3, day + 1) else (year + 1, month - 9, day + 1)

/-- The seconds of a day. -/
def daySeconds : Nat := 86400

/-- The date and time at a number of seconds from the beginning of 1970. -/
def ofSeconds (seconds : Int) : DateTime :=
  let (year, month, day) := ofDays (seconds / daySeconds)
  let time := (seconds % daySeconds).toNat
  ⟨year, month, day, time / 3600, time / 60 % 60, time % 60⟩

/-- A number with zeros in front up to a width. -/
def padded (width n : Nat) : Text :=
  let digits := Numeral.write n
  List.replicate (width - digits.length) '0' ++ digits

/-- A year, with a sign if it does not have four digits or fewer. -/
def writeYear (year : Int) : Text :=
  (if year < 0 then ['-'] else if 9999 < year then ['+'] else []) ++ padded 4 year.natAbs

/-- A date and time as listings show it. -/
def write (d : DateTime) : Text :=
  writeYear d.year ++ ['-'] ++ padded 2 d.month ++ ['-'] ++ padded 2 d.day ++ ['T'] ++
    padded 2 d.hour ++ [':'] ++ padded 2 d.minute ++ [':'] ++ padded 2 d.second ++ ['Z']

end DateTime

end PackageIndex
