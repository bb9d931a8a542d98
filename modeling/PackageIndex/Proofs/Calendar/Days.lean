import Mathlib.Tactic.NormNum
import PackageIndex.Calendar

/-!
# Counting Days

What the calendar says is how many days each month has, and which years have a
twenty-ninth of February. Counting from the beginning of 1970, month by month and
year by year, gives every date a number of seconds. The dates that are found by
division are dates of that calendar, and the number of seconds they have is the one
they were found for (`ofSeconds_seconds`).

The years that are counted begin in January, and the years of the division begin in
March. What connects them is the day that begins each. The days of the years from
1970 on are a sum with a closed form, in which the leap years are three quotients
(`firstDay_eq`). For years that begin in March the quotients are those of the year
itself, and dividing by the days of four hundred, a hundred, four years and one takes
them off one after the other (`march_parts`). The last year of four has a day that the
others do not have, and so has the last century of four hundred years. That is the
day which the limits of the divisions leave over, and the years that have it are those
in which February ends a day later.

## Main definitions

* `Calendar.isLeap`, `Calendar.monthsOf`: The years with a day more, and the months.
* `Calendar.firstDay`: The day a year begins, counted from 1970.
* `DateTime.Valid`: A date of the calendar and a time of day.
* `DateTime.seconds`: The seconds from the beginning of 1970 to a date and time.

## Theorems

* `Calendar.firstDay_eq`: The day a year begins, in closed form.
* `monthAndDay_spec`: The month and the day in it are those of the day of the year.
* `march_parts`: The parts of four hundred years, for years that begin in March.
* `ofDays_spec`: What division finds is a date, and the one of that day.
* `valid_ofSeconds`: What division finds is a date and a time of day.
* `ofSeconds_seconds`: It has that number of seconds.
-/

namespace PackageIndex

namespace Calendar

/-- A year with a twenty-ninth of February. Every fourth year has one, but of the
    years that end a century only every fourth. -/
def isLeap (year : Int) : Bool := year % 4 = 0 && (year % 100 ≠ 0 || year % 400 = 0)

/-- The days of the months of a year. -/
def monthsOf (year : Int) : List Nat :=
  [31, if isLeap year then 29 else 28, 31, 30, 31, 30, 31, 31, 30, 31, 30, 31]

/-- The days of the first so many months. -/
def daysBefore : List Nat → Nat → Nat
  | [], _ => 0
  | _, 0 => 0
  | length :: others, count + 1 => length + daysBefore others count

/-- The days of a year. -/
def daysOfYear (year : Int) : Nat := daysBefore (monthsOf year) 12

/-- The days of so many years. -/
def daysOfYears (first : Int) : Nat → Nat
  | 0 => 0
  | count + 1 => daysOfYears first count + daysOfYear (first + count)

/-- The day a year begins, counted from the beginning of 1970. One of the two sums is
    empty. -/
def firstDay (year : Int) : Int :=
  daysOfYears 1970 (year - 1970).toNat - daysOfYears year (1970 - year).toNat

/-- The days until a year, in closed form. The day they are counted from does not matter,
    since only differences are taken. -/
def daysUntil (year : Int) : Int :=
  365 * year + (year - 1) / 4 - (year - 1) / 100 + (year - 1) / 400

theorem isLeap_iff (year : Int) :
    isLeap year = true ↔ year % 4 = 0 ∧ (year % 100 ≠ 0 ∨ year % 400 = 0) := by
  simp [isLeap]

/-- The quotients grow by one after the years that are divisible. -/
theorem daysOfYear_eq (year : Int) : daysOfYear year = daysUntil (year + 1) - daysUntil year := by
  unfold daysUntil
  by_cases h : isLeap year = true
  · have hdays : daysOfYear year = 366 := by simp [daysOfYear, monthsOf, daysBefore, h]
    have hleap := (isLeap_iff year).mp h
    rw [hdays]
    omega
  · have hdays : daysOfYear year = 365 := by simp [daysOfYear, monthsOf, daysBefore, h]
    have hleap := mt (isLeap_iff year).mpr h
    rw [hdays]
    omega

theorem daysOfYears_eq (first : Int) (count : Nat) :
    daysOfYears first count = daysUntil (first + count) - daysUntil first := by
  induction count with
  | zero => simp [daysOfYears]
  | succ count ih =>
      have hlast := daysOfYear_eq (first + count)
      rw [daysOfYears, Nat.cast_add, ih, hlast, Nat.cast_succ, ← Int.add_assoc]
      omega

/-- The day a year begins, in closed form. -/
theorem firstDay_eq (year : Int) : firstDay year = daysUntil year - daysUntil 1970 := by
  rw [firstDay, daysOfYears_eq, daysOfYears_eq]
  by_cases h : 1970 ≤ year
  · have hyears : (1970 : Int) + (year - 1970).toNat = year := by omega
    have hnone : year + (1970 - year).toNat = year := by omega
    rw [hyears, hnone]
    omega
  · have hnone : (1970 : Int) + (year - 1970).toNat = 1970 := by omega
    have hyears : year + (1970 - year).toNat = 1970 := by omega
    rw [hyears, hnone]
    omega

/-- A date of the calendar. -/
structure IsDate (year : Int) (month day : Nat) : Prop where
  month_pos : 1 ≤ month
  month_le : month ≤ 12
  day_pos : 1 ≤ day
  day_le : day ≤ (monthsOf year)[month - 1]?.getD 0

/-- The day of a date, counted from the beginning of 1970. -/
def dayNumber (year : Int) (month day : Nat) : Int :=
  firstDay year + (daysBefore (monthsOf year) (month - 1) + (day - 1) : Nat)

end Calendar

namespace DateTime

open Calendar

/-- A date of the calendar and a time of day. -/
structure Valid (d : DateTime) : Prop extends IsDate d.year d.month d.day where
  hour_lt : d.hour < 24
  minute_lt : d.minute < 60
  second_lt : d.second < 60

/-- The seconds from the beginning of 1970 to a date and time. -/
def seconds (d : DateTime) : Int :=
  ((dayNumber d.year d.month d.day * 24 + d.hour) * 60 + d.minute) * 60 + d.second

/-- Dividing leaves nothing out, and a part that is not the last is whole. -/
theorem divideAtMost_spec (n : Nat) {length : Nat} (hlength : 0 < length) (last : Nat) :
    (divideAtMost n length last).1 ≤ last ∧
      (divideAtMost n length last).1 * length + (divideAtMost n length last).2 = n ∧
      ((divideAtMost n length last).1 = last ∨ (divideAtMost n length last).2 < length) := by
  have hparts := Nat.div_mul_le_self n length
  have hover := Nat.div_add_mod' n length
  have hrest := Nat.mod_lt n hlength
  unfold divideAtMost
  by_cases h : n / length ≤ last
  · rw [Nat.min_eq_left h]
    exact ⟨h, by simp only; omega, Or.inr (by simp only; omega)⟩
  · -- The last part takes what is over.
    rw [Nat.min_eq_right (by omega)]
    have hless := Nat.mul_le_mul_right length (Nat.le_of_not_le h)
    exact ⟨Nat.le_refl _, by simp only; omega, Or.inl rfl⟩

/-- The month and the day in it are those of the day of the year. -/
theorem monthAndDay_spec {lengths : List Nat} {day : Nat}
    (h : day < daysBefore lengths lengths.length) :
    (monthAndDay lengths day).1 < lengths.length ∧
      (monthAndDay lengths day).2 < lengths[(monthAndDay lengths day).1]?.getD 0 ∧
      daysBefore lengths (monthAndDay lengths day).1 + (monthAndDay lengths day).2 = day := by
  induction lengths generalizing day with
  | nil => exact absurd h (Nat.not_lt_zero day)
  | cons length others ih =>
      rw [List.length_cons, daysBefore] at h
      by_cases hday : day < length
      · rw [monthAndDay, if_pos hday]
        exact ⟨Nat.succ_pos _, hday, by simp [daysBefore]⟩
      · have hrest : day - length < daysBefore others others.length := by omega
        rcases ih hrest with ⟨hmonth, hin, hsum⟩
        rw [monthAndDay, if_neg hday]
        refine ⟨Nat.succ_lt_succ hmonth, hin, ?_⟩
        simp only [daysBefore]
        omega

/-- Four hundred years, of which so many are behind, taken apart into centuries, groups of
    four years and years. The day that is over is the last of February, in a year that
    has it. -/
theorem march_parts (cycle : Int) {n century rest group others year day : Nat}
    (hn : n < cycleDays)
    (hcentury : century ≤ 3 ∧ century * 36524 + rest = n ∧ (century = 3 ∨ rest < 36524))
    (hgroup : group ≤ 24 ∧ group * 1461 + others = rest ∧ (group = 24 ∨ others < 1461))
    (hyear : year ≤ 3 ∧ year * 365 + day = others ∧ (year = 3 ∨ day < 365))
    {march : Int} (hmarch : march = cycle * 400 + (century * 100 + group * 4 + year : Nat)) :
    cycle * cycleDays + n = 365 * march + march / 4 - march / 100 + march / 400 + day ∧
      (day < 365 ∨ day = 365 ∧ isLeap (march + 1) = true) := by
  have hdays : cycleDays = 146097 := rfl
  rw [hdays] at hn ⊢
  constructor
  · have hfour : march / 4 = cycle * 100 + (century * 25 + group : Nat) := by omega
    have hhundred : march / 100 = cycle * 4 + century := by omega
    have hcycle : march / 400 = cycle := by omega
    omega
  · -- A day is over only behind the last of four years, and of a century only behind the last.
    rw [isLeap_iff]
    omega

/-- Dividing finds the year that has begun in March and the day of that year. -/
theorem exists_march (days : Int) : ∃ (year : Int) (day : Nat),
    days + epochDay = 365 * year + year / 4 - year / 100 + year / 400 + day ∧
      (day < 365 ∨ day = 365 ∧ isLeap (year + 1) = true) ∧
      ofDays days = if (monthAndDay monthLengths day).1 < 10 then
          (year, (monthAndDay monthLengths day).1 + 3, (monthAndDay monthLengths day).2 + 1)
        else
          (year + 1, (monthAndDay monthLengths day).1 - 9,
            (monthAndDay monthLengths day).2 + 1) := by
  have hlow := Int.emod_nonneg (days + epochDay) (b := cycleDays) (by decide)
  have hhigh := Int.emod_lt_of_pos (days + epochDay) (b := cycleDays) (by decide)
  have hcycle := Int.ediv_mul_add_emod (days + epochDay) cycleDays
  have hparts := march_parts ((days + epochDay) / cycleDays) ((Int.toNat_lt hlow).mpr hhigh)
    (divideAtMost_spec _ (by decide) 3) (divideAtMost_spec _ (by decide) 24)
    (divideAtMost_spec _ (by decide) 3) rfl
  rw [Int.toNat_of_nonneg hlow, hcycle] at hparts
  refine ⟨_, _, hparts.1, hparts.2, ?_⟩
  simp only [ofDays]

/-- From March to December a year has the months of the year that begins in March, and
    the months before make up what is missing from that one. -/
theorem monthsOf_march (year : Int) {month : Nat} (h : month < 10) :
    (monthsOf year)[month + 2]? = monthLengths[month]? ∧
      daysBefore (monthsOf year) (month + 2) + 306 =
        daysOfYear year + daysBefore monthLengths month := by
  have hlengths : ∀ n < 10, [31, 30, 31, 30, 31, 31, 30, 31, 30, 31][n]? = monthLengths[n]? ∧
      daysBefore [31, 30, 31, 30, 31, 31, 30, 31, 30, 31] n = daysBefore monthLengths n := by
    decide
  rcases hlengths month h with ⟨hlength, hbefore⟩
  refine ⟨hlength, ?_⟩
  simp only [daysOfYear, monthsOf, daysBefore, hbefore]
  omega

variable {year : Int} {month day : Nat}

/-- A day from March to December. The first of March is the three hundred and sixth day
    before the next year. -/
theorem date_of_march (h : month < 10) (hin : day < monthLengths[month]?.getD 0) :
    IsDate year (month + 3) (day + 1) ∧ dayNumber year (month + 3) (day + 1) =
      firstDay (year + 1) - 306 + (daysBefore monthLengths month + day : Nat) := by
  rcases monthsOf_march year h with ⟨hlength, hmonths⟩
  have hyear := daysOfYear_eq year
  have hfirst := firstDay_eq year
  have hnext := firstDay_eq (year + 1)
  have hindex : month + 3 - 1 = month + 2 := rfl
  refine ⟨⟨by omega, by omega, by omega, ?_⟩, ?_⟩
  · rw [hindex, hlength]
    exact hin
  · rw [dayNumber, hindex, Nat.add_sub_cancel]
    omega

/-- A day of January or February, which are counted with the year before. -/
theorem date_of_winter (hlow : 10 ≤ month) (hhigh : month < 12)
    (hin : day < monthLengths[month]?.getD 0)
    (hover : daysBefore monthLengths month + day < 365 ∨ isLeap (year + 1) = true) :
    IsDate (year + 1) (month - 9) (day + 1) ∧ dayNumber (year + 1) (month - 9) (day + 1) =
      firstDay (year + 1) - 306 + (daysBefore monthLengths month + day : Nat) := by
  obtain rfl | rfl : month = 10 ∨ month = 11 := by omega
  · have hbefore : daysBefore monthLengths 10 = 306 := rfl
    have hnone : daysBefore (monthsOf (year + 1)) 0 = 0 := rfl
    refine ⟨⟨by decide, by decide, by omega, hin⟩, ?_⟩
    rw [dayNumber, hnone, hbefore]
    omega
  · have hbefore : daysBefore monthLengths 11 = 337 := rfl
    have hjanuary : daysBefore (monthsOf (year + 1)) 1 = 31 := rfl
    have hlength : monthLengths[11]?.getD 0 = 29 := rfl
    refine ⟨⟨by decide, by decide, by omega, ?_⟩, ?_⟩
    · change day + 1 ≤ if isLeap (year + 1) = true then 29 else 28
      by_cases h : isLeap (year + 1) = true
      · rw [if_pos h]
        omega
      · rw [if_neg h]
        have hless := hover.resolve_right h
        omega
    · rw [dayNumber, hjanuary, hbefore]
      omega

/-- What division finds is a date, and the one of that day. -/
theorem ofDays_spec (days : Int) :
    IsDate (ofDays days).1 (ofDays days).2.1 (ofDays days).2.2 ∧
      dayNumber (ofDays days).1 (ofDays days).2.1 (ofDays days).2.2 = days := by
  obtain ⟨year, day, hsum, hover, hdate⟩ := exists_march days
  have hmarch : days = firstDay (year + 1) - 306 + day := by
    have hepoch : epochDay = 719468 := rfl
    have hclosed : daysUntil 1970 = 719527 := rfl
    rw [firstDay_eq, hclosed, daysUntil, Int.add_sub_cancel]
    omega
  have hday : day < daysBefore monthLengths monthLengths.length := by
    change day < 366
    omega
  rcases monthAndDay_spec hday with ⟨hmonth, hin, hbefore⟩
  rw [hdate, hmarch]
  generalize monthAndDay monthLengths day = found at *
  by_cases h : found.1 < 10
  · rw [if_pos h, ← hbefore]
    exact date_of_march h hin
  · rw [if_neg h, ← hbefore]
    exact date_of_winter (Nat.le_of_not_lt h) hmonth hin (hover.imp hbefore.trans_lt And.right)

/-- The parts of what is found for a number of seconds. -/
theorem ofSeconds_eq (seconds : Int) : ofSeconds seconds =
    ⟨(ofDays (seconds / daySeconds)).1, (ofDays (seconds / daySeconds)).2.1,
      (ofDays (seconds / daySeconds)).2.2, (seconds % daySeconds).toNat / 3600,
      (seconds % daySeconds).toNat / 60 % 60, (seconds % daySeconds).toNat % 60⟩ := by
  unfold ofSeconds
  generalize ofDays (seconds / daySeconds) = date
  rfl

theorem valid_mk {hour minute second : Nat} (hdate : IsDate year month day) (hhour : hour < 24)
    (hminute : minute < 60) (hsecond : second < 60) :
    Valid ⟨year, month, day, hour, minute, second⟩ :=
  ⟨hdate, hhour, hminute, hsecond⟩

theorem seconds_mk (year : Int) (month day hour minute second : Nat) :
    seconds ⟨year, month, day, hour, minute, second⟩ =
      ((dayNumber year month day * 24 + hour) * 60 + minute) * 60 + second := rfl

/-- What division finds is a date of the calendar and a time of day. -/
theorem valid_ofSeconds (seconds : Int) : (ofSeconds seconds).Valid := by
  have hlow := Int.emod_nonneg seconds (b := daySeconds) (by decide)
  have hhigh := Int.emod_lt_of_pos seconds (b := daySeconds) (by decide)
  have hlength : (daySeconds : Int) = 86400 := rfl
  rw [ofSeconds_eq]
  exact valid_mk (ofDays_spec _).1 (by omega) (Nat.mod_lt _ (by decide)) (Nat.mod_lt _ (by decide))

/-- It has that number of seconds. -/
theorem ofSeconds_seconds (seconds : Int) : (ofSeconds seconds).seconds = seconds := by
  have hdays : seconds / daySeconds * 86400 + seconds % daySeconds = seconds :=
    Int.ediv_mul_add_emod seconds daySeconds
  have hlow := Int.emod_nonneg seconds (b := daySeconds) (by decide)
  rw [ofSeconds_eq, seconds_mk, (ofDays_spec _).2]
  omega

/-- The year 1900 is no leap year, and 2024 is one. -/
example : seconds ⟨1900, 2, 28, 23, 59, 59⟩ + 1 = seconds ⟨1900, 3, 1, 0, 0, 0⟩ ∧
    seconds ⟨2024, 5, 1, 10, 20, 30⟩ = 1714558830 := by decide +kernel

end DateTime

end PackageIndex
