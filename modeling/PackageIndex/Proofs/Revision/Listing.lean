import Mathlib.Tactic.Ring
import PackageIndex.Proofs.Calendar.Shown
import PackageIndex.Proofs.Json.Scaled
import PackageIndex.Revision.Basic

/-!
# Times in Listings

The time of a revision is a number of seconds with a fraction, and a listing shows a
second. In between stands a whole number of microseconds. To find it, the seconds are
multiplied by a million, which gives another number of sixty-four bits, and the nearest
whole number to that one is taken, as far as there is room for it (`micros_denotes`). The
product is rounded before the whole number is looked for. It may come to lie halfway
between two microseconds when the exact one is short of that, so a time may be listed a
second later than it is, if it is within half a microsecond of the end of its second.

Dividing the microseconds by a million towards the past gives the second, before 1970 as
well as after it, and the date is the one with that number of seconds (`iso?_eq_some`).
There is none only where the calendar has been cut off, and where that is can be said by
the dates themselves (`iso?_eq_none_iff`).

As a text shows one date at most, what is listed can be told apart and put in order
again, up to the second.

## Main definitions

* `RoundsAway`: The nearest whole number, a half away from zero.
* `Denotes`: The whole number that a number of sixty-four bits is taken for.

## Theorems

* `scale_rounds`: A product is what the exact product rounds to.
* `micros_denotes`: The microseconds are what the product with a million is taken for.
* `iso?_eq_none_iff`: Which times have no date.
* `iso?_eq_some`: The date that is listed is the one of the second.
* `iso_shows_second`: The laws together, with the order of what is listed.
-/

namespace PackageIndex

namespace Revision

open DateTime

/-- A whole number is nearest to a number of units, so many of which make one, and of two
    that are equally near it is the one further away from zero. -/
structure RoundsAway (one : Nat) (units whole : Int) : Prop where
  near : 2 * (whole * one - units).natAbs ≤ one
  tie : 2 * (whole * one - units).natAbs = one → units.natAbs < (whole * one).natAbs

/-- A number of sixty-four bits is taken for a whole number: the nearest one, or the
    limit that it is beyond, and zero if it is not a number. -/
def Denotes : Binary64 → Int → Prop
  | .nan, n => n = 0
  | .infinite negative, n => n = if negative then limits.1 else limits.2
  | .finite negative m, n =>
    ∃ whole, RoundsAway unitsOfOne (Binary64.signed negative m.units) whole ∧
      n = max limits.1 (min whole limits.2)

/-- Rounding away from zero is the same on either side of it. -/
theorem RoundsAway.neg {one : Nat} {units whole : Int} (h : RoundsAway one units whole) :
    RoundsAway one (-units) (-whole) := by
  have hdiff : -whole * one - -units = -(whole * one - units) := by ring
  constructor
  · rw [hdiff, Int.natAbs_neg]
    exact h.near
  · rw [hdiff, Int.natAbs_neg, Int.natAbs_neg, Int.neg_mul, Int.natAbs_neg]
    exact h.tie

/-- Dividing a half more finds the nearest whole number. -/
theorem roundsAway_div (units : Nat) {one : Nat} (hone : 0 < one) :
    RoundsAway one units ((2 * units + one) / (2 * one) : Nat) := by
  have hrest := Nat.mod_lt (2 * units + one) (show 0 < 2 * one by omega)
  have hparts := Nat.div_add_mod (2 * units + one) (2 * one)
  generalize (2 * units + one) / (2 * one) = whole at *
  have hproduct : 2 * one * whole = 2 * (whole * one) := by ring
  rw [hproduct] at hparts
  constructor
  · rw [← Nat.cast_mul]
    omega
  · rw [← Nat.cast_mul]
    omega

/-- Rounding finds the nearest whole number, on either side of zero. -/
theorem roundsAway_round (negative : Bool) (m : Magnitude) :
    RoundsAway unitsOfOne (Binary64.signed negative m.units) (Binary64.round negative m) := by
  have hround := roundsAway_div m.units Magnitude.unitsOfOne_pos
  have hplus : ∀ n, Binary64.signed false n = n := fun _ => rfl
  have hminus : ∀ n, Binary64.signed true n = -n := fun _ => rfl
  rw [Binary64.round]
  cases negative with
  | false =>
      rw [hplus, hplus]
      exact hround
  | true =>
      rw [hminus, hminus]
      exact hround.neg

/-- A product with a natural number is the finite number that the exact product rounds to.
    From the last halfway point on it is infinite. -/
theorem scale_rounds (negative : Bool) (m : Magnitude) (k : Nat) :
    (∃ p : Magnitude, Binary64.scale (.finite negative m) k = .finite negative p ∧
        Rounds p.rank (m.units * k) 1) ∨
      Binary64.scale (.finite negative m) k = .infinite negative ∧
        Magnitude.overflowUnits ≤ 2 * (m.units * k) := by
  have hrounds := Binary64.nearest_rounds negative (n := m.units * k) Nat.one_pos
  rwa [Nat.mul_one] at hrounds

/-- The microseconds are what the product with a million, rounded to sixty-four bits, is
    taken for. -/
theorem micros_denotes (r : Revision) : Denotes (r.time.scale 1000000) r.micros := by
  unfold micros microsOf
  cases r.time.scale 1000000 with
  | nan => rfl
  | infinite negative => rfl
  | finite negative m => exact ⟨_, roundsAway_round negative m, rfl⟩

/-- The beginning of a year, in seconds. -/
theorem seconds_newYear (year : Int) : seconds ⟨year, 1, 1, 0, 0, 0⟩ =
    (Calendar.daysUntil year - Calendar.daysUntil 1970) * 86400 := by
  have hnone : Calendar.daysBefore (Calendar.monthsOf year) (1 - 1) = 0 := rfl
  rw [seconds_mk, Calendar.dayNumber, Calendar.firstDay_eq, hnone]
  omega

/-- There is no date before the year -262143, and none after the year 262142. -/
theorem iso?_eq_none_iff (r : Revision) : r.iso? = none ↔
    r.micros < seconds ⟨-262143, 1, 1, 0, 0, 0⟩ * 1000000 ∨
      seconds ⟨262143, 1, 1, 0, 0, 0⟩ * 1000000 ≤ r.micros := by
  have hfirst : seconds ⟨-262143, 1, 1, 0, 0, 0⟩ = -8334601228800 := seconds_newYear _
  have hlast : seconds ⟨262143, 1, 1, 0, 0, 0⟩ = 8210266876800 := seconds_newYear _
  rw [hfirst, hlast, iso?, Option.map_eq_none_iff, instant?, ite_eq_right_iff]
  simp only [dated, reduceCtorEq, imp_false]
  omega

/-- The date that is listed is the one of the second. -/
theorem iso?_eq_some {r : Revision} {s : Text} (h : r.iso? = some s) :
    ∃ d : DateTime, d.Valid ∧ Shows s d ∧ d.seconds = r.micros / 1000000 := by
  rw [iso?, Option.map_eq_some_iff] at h
  obtain ⟨micros, hinstant, rfl⟩ := h
  rw [instant?, Option.ite_none_right_eq_some] at hinstant
  rw [← Option.some.inj hinstant.2]
  have hvalid := valid_ofSeconds (r.micros / 1000000)
  exact ⟨_, hvalid, shows_write hvalid, ofSeconds_seconds _⟩

/-- A listing shows the second of the microsecond that a time denotes. That is the nearest
    one to the product with a million, after the product has been rounded to sixty-four
    bits. There is no date only if it is outside of the calendar, and otherwise the text is
    the date and time of the second which it is in. So what is shown is in the order of the
    microseconds, and the same text is the same second. -/
theorem iso_shows_second :
    (∀ r : Revision, Denotes (r.time.scale 1000000) r.micros ∧
      (r.iso? = none ↔ r.micros < seconds ⟨-262143, 1, 1, 0, 0, 0⟩ * 1000000 ∨
        seconds ⟨262143, 1, 1, 0, 0, 0⟩ * 1000000 ≤ r.micros) ∧
      ∀ s, r.iso? = some s →
        ∃ d : DateTime, d.Valid ∧ Shows s d ∧ d.seconds = r.micros / 1000000) ∧
      ∀ (r q : Revision) (s t : Text), r.iso? = some s → q.iso? = some t →
        (r.micros ≤ q.micros →
          ∀ d e : DateTime, Shows s d → Shows t e → d.seconds ≤ e.seconds) ∧
          (s = t → r.micros / 1000000 = q.micros / 1000000) := by
  refine ⟨fun r => ⟨micros_denotes r, iso?_eq_none_iff r, fun s => iso?_eq_some⟩,
    fun r q s t hr hq => ?_⟩
  obtain ⟨d, -, hd, hdr⟩ := iso?_eq_some hr
  obtain ⟨e, -, he, heq⟩ := iso?_eq_some hq
  constructor
  · intro hle d' e' hd' he'
    rw [hd'.unique hd, he'.unique he, hdr, heq]
    exact Int.ediv_le_ediv (by decide) hle
  · rintro rfl
    rw [← hdr, ← heq, hd.unique he]

/-- One and a half seconds before 1970 is in the last second but one. -/
theorem iso_shows_second_before : ∃ d : DateTime, d.Valid ∧ Shows "1969-12-31T23:59:58Z".toList d ∧
    d.seconds = -2 ∧ ∀ e, Shows "2024-05-01T10:20:30Z".toList e → d.seconds ≤ e.seconds := by
  have hbefore : iso? ⟨['a'], .nearest true (3 * unitsOfOne) 2⟩ =
      some "1969-12-31T23:59:58Z".toList := by decide +kernel
  have hafter : iso? ⟨['b'], .nearest false (6858235321 * unitsOfOne) 4⟩ =
      some "2024-05-01T10:20:30Z".toList := by decide +kernel
  have hmicros : micros ⟨['a'], .nearest true (3 * unitsOfOne) 2⟩ = -1500000 := by decide +kernel
  obtain ⟨d, hvalid, hd, hseconds⟩ := (iso_shows_second.1 _).2.2 _ hbefore
  have horder := (iso_shows_second.2 _ _ _ _ hbefore hafter).1 (by decide +kernel)
  rw [hmicros] at hseconds
  exact ⟨d, hvalid, hd, hseconds, fun e he => horder d e hd he⟩

/-- The product of this time and a million is rounded to a half, and that away from
    zero, so it is listed as the next second. -/
example : iso? ⟨['a'], .nearest false (19999995 * unitsOfOne) 10000000⟩ =
    some "1970-01-01T00:00:02Z".toList := by decide +kernel

end Revision

end PackageIndex
