import PackageIndex.Proofs.Calendar.Days
import PackageIndex.Proofs.Text.Numeral

/-!
# Dates in Texts

A text shows a date and time if it has the year, two digits each for the month, the
day, the hour, the minute and the second, and the marks between them. A year up to 9999
has four digits. Any other has a sign, and as many digits as it takes, but not fewer
than four.

What is written for a date is such a text (`shows_write`), since no part but the year
needs more than two digits. That holds for the dates of the calendar only. And a text
shows one date at most (`Shows.unique`): everything behind the year has a length that
does not depend on the date, so the parts are found by counting from the end, and what
is left in front is the year. It begins with a digit unless there is a sign, so the
sign can be told from the digits.

## Main definitions

* `TwoDigits`, `ShowsYear`: The parts of a date in a text.
* `Shows`: A date and time in a text.

## Theorems

* `read?_padded`, `length_padded`: Zeros in front do not change a number.
* `shows_write`: What is written for a date shows it.
* `Shows.unique`: A text shows one date at most.
-/

namespace PackageIndex

namespace DateTime

open Calendar

/-- Two digits that stand for a number. -/
def TwoDigits (s : Text) (n : Nat) : Prop := s.length = 2 ∧ Numeral.read? s = some n

/-- A year: four digits, or more where the first is not a zero, and a sign in front of
    them if the year is before year zero or after 9999. -/
def ShowsYear (s : Text) (year : Int) : Prop :=
  ∃ digits : Text, Numeral.read? digits = some year.natAbs ∧
    (digits.length = 4 ∨ 4 < digits.length ∧ digits.head? ≠ some '0') ∧
    s = if year < 0 then '-' :: digits else if 9999 < year then '+' :: digits else digits

/-- A date and time in a text. -/
def Shows (s : Text) (d : DateTime) : Prop :=
  ∃ year month day hour minute second : Text,
    s = year ++ ['-'] ++ month ++ ['-'] ++ day ++ ['T'] ++ hour ++ [':'] ++ minute ++ [':'] ++
      second ++ ['Z'] ∧
    ShowsYear year d.year ∧ TwoDigits month d.month ∧ TwoDigits day d.day ∧
    TwoDigits hour d.hour ∧ TwoDigits minute d.minute ∧ TwoDigits second d.second

/-- Zeros in front do not change a number. -/
theorem read?_padded (width n : Nat) : Numeral.read? (padded width n) = some n := by
  have hdigits : ∀ c ∈ padded width n, c.isDigit = true := by
    intro c hc
    rcases List.mem_append.mp hc with hzero | hdigit
    · rw [List.eq_of_mem_replicate hzero]
      rfl
    · exact Numeral.isDigit_of_mem_write hdigit
  have hne : padded width n ≠ [] := List.append_ne_nil_of_right_ne_nil _ (Numeral.write_ne_nil n)
  rw [Numeral.read?, if_pos (by simpa [hne] using hdigits), padded, Nat.ofDigitChars_append,
    Nat.ofDigitChars_replicate_zero, Nat.mul_zero, Numeral.ofDigitChars_write]

/-- A number that does not need more digits has as many as it is padded to. -/
theorem length_padded {width n : Nat} (hwidth : 0 < width) (h : n < 10 ^ width) :
    (padded width n).length = width := by
  have hlength := (Numeral.length_write_le_iff hwidth).mpr h
  rw [padded, List.length_append, List.length_replicate]
  omega

/-- A number that needs more digits is not padded. -/
theorem padded_of_le {width n : Nat} (hwidth : 0 < width) (h : 10 ^ width ≤ n) :
    padded width n = Numeral.write n ∧ width < (Numeral.write n).length := by
  have hlength := mt (Numeral.length_write_le_iff hwidth).mp (Nat.not_lt.mpr h)
  rw [padded, Nat.sub_eq_zero_of_le (by omega)]
  exact ⟨rfl, by omega⟩

theorem twoDigits_padded {n : Nat} (h : n < 100) : TwoDigits (padded 2 n) n :=
  ⟨length_padded (by decide) h, read?_padded 2 n⟩

theorem showsYear_write (year : Int) : ShowsYear (writeYear year) year := by
  refine ⟨padded 4 year.natAbs, read?_padded 4 _, ?_, ?_⟩
  · by_cases h : year.natAbs < 10 ^ 4
    · exact Or.inl (length_padded (by decide) h)
    · rcases padded_of_le (by decide) (Nat.le_of_not_lt h) with ⟨heq, hlength⟩
      rw [heq]
      exact Or.inr ⟨hlength, Numeral.head?_write_ne_zero (by omega)⟩
  · rw [writeYear]
    by_cases hneg : year < 0
    · rw [if_pos hneg, if_pos hneg]
      rfl
    · rw [if_neg hneg, if_neg hneg]
      by_cases hlate : 9999 < year
      · rw [if_pos hlate, if_pos hlate]
        rfl
      · rw [if_neg hlate, if_neg hlate]
        rfl

/-- No month has more than thirty-one days. -/
theorem day_le_of_isDate {year : Int} {month day : Nat} (h : IsDate year month day) : day ≤ 31 := by
  have hmonths : ∀ length ∈ monthsOf year, length ≤ 31 := by
    intro length hlength
    cases hleap : isLeap year <;> simp [monthsOf, hleap] at hlength <;> omega
  refine Nat.le_trans h.day_le ?_
  cases hlength : (monthsOf year)[month - 1]? with
  | none => exact Nat.zero_le _
  | some length => exact hmonths length (List.mem_of_getElem? hlength)

/-- What is written for a date shows it. -/
theorem shows_write {d : DateTime} (hd : d.Valid) : Shows d.write d := by
  have hmonth := hd.month_le
  have hday := day_le_of_isDate hd.toIsDate
  have hhour := hd.hour_lt
  have hminute := hd.minute_lt
  have hsecond := hd.second_lt
  exact ⟨_, _, _, _, _, _, rfl, showsYear_write d.year, twoDigits_padded (by omega),
    twoDigits_padded (by omega), twoDigits_padded (by omega), twoDigits_padded (by omega),
    twoDigits_padded (by omega)⟩

/-- Two digits behind a mark are told from what stands in front of it. -/
theorem TwoDigits.append_inj {a b s t : Text} {mark : Char} {m n : Nat} (hs : TwoDigits s m)
    (ht : TwoDigits t n) (h : a ++ [mark] ++ s = b ++ [mark] ++ t) : a = b ∧ m = n := by
  rcases List.append_inj' h (hs.1.trans ht.1.symm) with ⟨hfront, rfl⟩
  exact ⟨List.append_cancel_right hfront, Option.some.inj (hs.2.symm.trans ht.2)⟩

/-- The first character of a year says whether it has a sign, and which one. -/
theorem ShowsYear.head_iff {s : Text} {year : Int} (h : ShowsYear s year) :
    (s.head? = some '-' ↔ year < 0) ∧ (s.head? = some '+' ↔ 9999 < year) := by
  obtain ⟨digits, hread, -, rfl⟩ := h
  have hdigits := Numeral.isDigit_of_read? hread
  have hnone : ∀ sign : Char, sign.isDigit = false → digits.head? ≠ some sign := by
    intro sign hsign hhead
    rw [hdigits sign (List.mem_of_head? hhead)] at hsign
    cases hsign
  by_cases hneg : year < 0
  · rw [if_pos hneg]
    exact ⟨iff_of_true rfl hneg, iff_of_false (by simp) (by omega)⟩
  · rw [if_neg hneg]
    by_cases hlate : 9999 < year
    · rw [if_pos hlate]
      exact ⟨iff_of_false (by simp) hneg, iff_of_true rfl hlate⟩
    · rw [if_neg hlate]
      exact ⟨iff_of_false (hnone '-' rfl) hneg, iff_of_false (hnone '+' rfl) hlate⟩

/-- A text shows one year at most. -/
theorem ShowsYear.unique {s : Text} {year other : Int} (h : ShowsYear s year)
    (h' : ShowsYear s other) : year = other := by
  have hneg : year < 0 ↔ other < 0 := h.head_iff.1.symm.trans h'.head_iff.1
  have hlate : 9999 < year ↔ 9999 < other := h.head_iff.2.symm.trans h'.head_iff.2
  obtain ⟨digits, hread, -, hs⟩ := h
  obtain ⟨digits', hread', -, hs'⟩ := h'
  have hsame : digits = digits' := by
    by_cases hbefore : other < 0
    · rw [if_pos (hneg.mpr hbefore)] at hs
      rw [if_pos hbefore, hs] at hs'
      exact (List.cons.inj hs').2
    · rw [if_neg (mt hneg.mp hbefore)] at hs
      rw [if_neg hbefore] at hs'
      by_cases hafter : 9999 < other
      · rw [if_pos (hlate.mpr hafter)] at hs
        rw [if_pos hafter, hs] at hs'
        exact (List.cons.inj hs').2
      · rw [if_neg (mt hlate.mp hafter)] at hs
        rw [if_neg hafter, hs] at hs'
        exact hs'
  rw [hsame, hread'] at hread
  have hvalue := Option.some.inj hread
  omega

/-- A text shows one date at most. -/
theorem Shows.unique {s : Text} {d e : DateTime} (hd : Shows s d) (he : Shows s e) : d = e := by
  obtain ⟨_, _, _, _, _, _, rfl, hyear, hmonth, hday, hhour, hminute, hsecond⟩ := hd
  obtain ⟨_, _, _, _, _, _, heq, hyear', hmonth', hday', hhour', hminute', hsecond'⟩ := he
  -- From the end on every part is two digits behind a mark.
  obtain ⟨heq, hsecond⟩ := hsecond.append_inj hsecond' (List.append_cancel_right heq)
  obtain ⟨heq, hminute⟩ := hminute.append_inj hminute' heq
  obtain ⟨heq, hhour⟩ := hhour.append_inj hhour' heq
  obtain ⟨heq, hday⟩ := hday.append_inj hday' heq
  obtain ⟨rfl, hmonth⟩ := hmonth.append_inj hmonth' heq
  cases d
  cases e
  rw [DateTime.mk.injEq]
  exact ⟨hyear.unique hyear', hmonth, hday, hhour, hminute, hsecond⟩

end DateTime

end PackageIndex
