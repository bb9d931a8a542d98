import PackageIndex.Json.Number
import PackageIndex.Proofs.Number.Rounding

/-!
# When a Scaled Number Is Finite

A number is read as a whole number and a power of ten, and one multiplication
or division puts them together. Both are rounded before, and the result is
rounded again, so it may exceed the number that was written. What matters here
is that it does not become infinite.

Division is harmless. A power of ten is at least one, and it is at least one
after rounding too, so the quotient does not exceed the magnitude that is
divided (`overPower_isSome`), however often that is done
(`divideOut_isSome`).

Multiplication can only do harm near the greatest magnitude. Each of the two
factors is off by at most one part in `2 ^ 53`, so a product that stays that
much below the last halfway point is finite (`scaled_isSome_of_le`).

## Main definitions

* `Magnitude.overflowWhole`: Twice the whole number from which on nothing is
  finite.

## Theorems

* `overflowUnits_eq`: The last halfway point is a whole number.
* `ofNat_isSome`: Whole numbers below that point have a magnitude.
* `overPower_isSome`: Dividing by a power of ten is always possible.
* `scaled_isSome_of_neg`: So a number with a negative power is finite.
* `scaled_isSome_of_le`: When a number with a positive power is.
-/

namespace PackageIndex

namespace Magnitude

theorem unitsOfOne_eq : unitsOfOne = 2 ^ unitExponent := by
  unfold unitsOfOne
  generalize unitExponent = e
  exact Nat.pow_eq

theorem unitsOfOne_pos : 0 < unitsOfOne := by
  rw [unitsOfOne_eq]
  exact Nat.two_pow_pos _

/-- The units of one of the last ranks, counted back from the end. -/
theorem unitsOfRank_last {j : Nat} (hj : j ≤ runLength) :
    unitsOfRank (2047 * runLength - j) = (2 ^ 53 - j) * 2 ^ 971 * unitsOfOne := by
  have hrank : 2047 * runLength - j = 2045 * runLength + (2 * runLength - j) := by omega
  have hrun : 2 * runLength = 2 ^ 53 := by
    rw [runLength_eq]
    norm_num
  have hpow : (2 : Nat) ^ 2045 = 2 ^ 971 * unitsOfOne := by
    rw [unitsOfOne_eq, ← Nat.pow_add]
    rw [show 2045 = 971 + unitExponent from rfl]
  rw [hrank, unitsOfRank_run (Or.inr (by omega)) (by omega), hpow, hrun, Nat.mul_assoc]

/-- Twice the whole number from which on nothing is finite. -/
def overflowWhole : Nat := (2 ^ 54 - 1) * 2 ^ 971

theorem overflowUnits_eq : overflowUnits = overflowWhole * unitsOfOne := by
  have hlast := unitsOfRank_last (j := 1) (by rw [runLength_eq]; omega)
  have hend := unitsOfRank_last (j := 0) (by omega)
  rw [Nat.sub_zero] at hend
  rw [overflowUnits, hlast, hend, overflowWhole, ← Nat.add_mul, ← Nat.add_mul,
    show 2 ^ 53 - 1 + (2 ^ 53 - 0) = 2 ^ 54 - 1 by norm_num]

/-- Whole numbers below the last halfway point have a magnitude. -/
theorem ofNat_isSome {n : Nat} (h : 2 * n < overflowWhole) : (ofNat n).isSome = true := by
  rw [ofNat, nearest_isSome_iff Nat.one_pos, overflowUnits_eq, Nat.mul_one, ← Nat.mul_assoc]
  exact Nat.mul_lt_mul_of_pos_right h unitsOfOne_pos

/-- The magnitude of one. -/
theorem exists_one : ∃ one : Magnitude, one.units = unitsOfOne := by
  have hlt : 1022 * runLength + runLength < 2047 * runLength := by
    rw [runLength_eq]
    omega
  refine ⟨⟨1022 * runLength + runLength, hlt⟩, ?_⟩
  have hrun : runLength = 2 ^ 52 := rfl
  rw [units, unitsOfRank_run (Or.inr (Nat.le_refl _)) (by omega), unitsOfOne_eq, hrun,
    ← Nat.pow_add, show 52 + 1022 = unitExponent from rfl]

/-- A positive whole number has a magnitude of at least one. -/
theorem unitsOfOne_le_of_ofNat {n : Nat} (hn : 0 < n) {m : Magnitude} (h : ofNat n = some m) :
    unitsOfOne ≤ m.units := by
  obtain ⟨one, hone⟩ := exists_one
  rw [← hone]
  refine units_le_of_nearest Nat.one_pos ?_ h
  rw [hone, Nat.mul_one]
  exact Nat.le_mul_of_pos_left _ hn

/-- The magnitude of a positive whole number exceeds it by at most one part in
    `2 ^ 53`. -/
theorem units_mul_le_of_ofNat {n : Nat} (hn : 0 < n) {m : Magnitude} (h : ofNat n = some m) :
    m.units * 2 ^ 53 ≤ n * unitsOfOne * (2 ^ 53 + 1) := by
  have hexp : 52 ≤ unitExponent := by decide
  have hrun : runLength ≤ unitsOfOne := by
    rw [unitsOfOne_eq]
    exact Nat.pow_le_pow_right Nat.two_pos hexp
  have hle : runLength * 1 ≤ n * unitsOfOne := by
    rw [Nat.mul_one]
    exact Nat.le_trans hrun (Nat.le_mul_of_pos_left _ hn)
  have := units_mul_le_of_nearest Nat.one_pos hle h
  rwa [Nat.mul_one] at this

end Magnitude

namespace Json

open Magnitude

/-- The powers of ten of the table have a magnitude. -/
theorem ofNat_pow_isSome {k : Nat} (hk : k ≤ tablePower) :
    (Magnitude.ofNat (Nat.pow 10 k)).isSome = true := by
  refine ofNat_isSome ?_
  have htable : 2 * Nat.pow 10 tablePower < overflowWhole := by decide +kernel
  have hle : Nat.pow 10 k ≤ Nat.pow 10 tablePower := by
    generalize tablePower = t at *
    exact Nat.pow_le_pow_right (by omega) hk
  exact Nat.lt_of_le_of_lt (Nat.mul_le_mul_left 2 hle) htable

/-- Dividing by a power of ten of the table is always possible. -/
theorem overPower_isSome (m : Magnitude) {k : Nat} (hk : k ≤ tablePower) :
    (overPower m k).isSome = true := by
  obtain ⟨b, hb⟩ := Option.isSome_iff_exists.mp (ofNat_pow_isSome hk)
  have hone := unitsOfOne_le_of_ofNat (Nat.pow_pos (by omega)) hb
  have hpos := Nat.lt_of_lt_of_le unitsOfOne_pos hone
  -- What is divided by is at least one, rounded or not.
  have hlt := Nat.mul_lt_mul_of_pos_right (two_mul_units_lt m) unitsOfOne_pos
  have hle := Nat.mul_le_mul_left overflowUnits hone
  rw [overPower, hb, Option.bind_eq_bind, Option.bind_some, Magnitude.div,
    nearest_isSome_iff hpos, ← Nat.mul_assoc]
  exact Nat.lt_of_lt_of_le hlt hle

theorem divideOut_isSome (steps : Nat) (m : Magnitude) : (divideOut steps m).isSome = true := by
  induction steps generalizing m with
  | zero => rw [divideOut, Option.isSome_some]
  | succ steps ih =>
      rw [divideOut]
      by_cases hzero : m.rank = 0
      · rw [if_pos hzero, Option.isSome_some]
      · obtain ⟨q, hq⟩ := Option.isSome_iff_exists.mp (overPower_isSome m (Nat.le_refl tablePower))
        rw [if_neg hzero, hq, Option.bind_eq_bind, Option.bind_some]
        exact ih q

/-- A number with a negative power of ten is finite. -/
theorem scaled_isSome_of_neg {n : Nat} {exponent : Int} (hn : 2 * n < overflowWhole)
    (hneg : exponent < 0) : (scaled n exponent).isSome = true := by
  obtain ⟨m, hm⟩ := Option.isSome_iff_exists.mp (ofNat_isSome hn)
  obtain ⟨q, hq⟩ := Option.isSome_iff_exists.mp
    (divideOut_isSome ((exponent.natAbs - 1) / tablePower) m)
  -- What the steps leave of the power is in the table.
  have hrest : exponent.natAbs - (exponent.natAbs - 1) / tablePower * tablePower ≤ tablePower := by
    unfold tablePower
    omega
  rw [scaled, hm, Option.bind_eq_bind, Option.bind_some, if_neg (by omega)]
  dsimp only
  rw [hq, Option.bind_some]
  exact overPower_isSome q hrest

/-- A number with a power of ten of the table is finite if it stays clear of
    the last halfway point. -/
theorem scaled_isSome_of_le {n power : Nat} (hn : 0 < n) (hpower : power ≤ tablePower)
    (h : 2 * (n * 10 ^ power) * (2 ^ 53 + 1) ^ 2 < overflowWhole * 2 ^ 106) :
    (scaled n power).isSome = true := by
  have hpos : 0 < 10 ^ power := Nat.pow_pos (by omega)
  -- The whole number alone stays clear of the halfway point too.
  have hnat : 2 * n < overflowWhole := by
    refine Nat.lt_of_mul_lt_mul_right (a := 2 ^ 106) (Nat.lt_of_le_of_lt ?_ h)
    have : n ≤ n * 10 ^ power := Nat.le_mul_of_pos_right n hpos
    nlinarith
  obtain ⟨a, ha⟩ := Option.isSome_iff_exists.mp (ofNat_isSome hnat)
  obtain ⟨b, hb⟩ := Option.isSome_iff_exists.mp (ofNat_pow_isSome hpower)
  have hua := units_mul_le_of_ofNat hn ha
  have hub := units_mul_le_of_ofNat (Nat.pow_pos (by omega)) hb
  rw [scaled, ha, Option.bind_eq_bind, Option.bind_some, if_pos (by omega),
    if_pos (by exact_mod_cast hpower), Int.toNat_natCast, timesPower, hb, Option.bind_eq_bind,
    Option.bind_some, Magnitude.mul, nearest_isSome_iff unitsOfOne_pos, overflowUnits_eq]
  refine Nat.lt_of_mul_lt_mul_right (a := 2 ^ 106) ?_
  -- Both factors are off by at most one part in `2 ^ 53`.
  calc 2 * (a.units * b.units) * 2 ^ 106 = 2 * ((a.units * 2 ^ 53) * (b.units * 2 ^ 53)) := by ring
    _ ≤ 2 * ((n * unitsOfOne * (2 ^ 53 + 1)) * (10 ^ power * unitsOfOne * (2 ^ 53 + 1))) :=
      Nat.mul_le_mul_left 2 (Nat.mul_le_mul hua hub)
    _ = 2 * (n * 10 ^ power) * (2 ^ 53 + 1) ^ 2 * (unitsOfOne * unitsOfOne) := by ring
    _ < overflowWhole * 2 ^ 106 * (unitsOfOne * unitsOfOne) :=
      Nat.mul_lt_mul_of_pos_right h (Nat.mul_pos unitsOfOne_pos unitsOfOne_pos)
    _ = overflowWhole * unitsOfOne * unitsOfOne * 2 ^ 106 := by ring

end Json

end PackageIndex
