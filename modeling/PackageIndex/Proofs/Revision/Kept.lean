import PackageIndex.Proofs.Revision.RoundTrip

/-!
# Times That Are Kept

Not every finite time is kept by writing and reading it, but the common ones
are. Reading rounds three times, and what was written rounds to the time that
it was written for. If the first two roundings change nothing, the third one
therefore gives the time back (`Binary64.reread_eq_self`).

The first two are of whole numbers, and they change nothing as long as the
number is a magnitude itself. All numbers up to `2 ^ 53` are, and so is every
one of those doubled any number of times (`exists_units_eq`). The powers of
ten are powers of five, doubled. The twenty-second is the last one whose power
of five is small enough.

Fifty-three bits are fifteen digits and some of the sixteenth, which is enough
for a time of these days to the microsecond. A clock that tells more than that
gives times with seventeen digits, and those are kept or not as it happens.

## Main definitions

* `Binary64.Brief`: A time whose text has few digits.

## Theorems

* `exists_units_eq`: Numbers of fifty-three bits, doubled, are magnitudes.
* `scaled_eq_some`: A number with few digits is read correctly.
* `Binary64.reread_eq_self`: A time whose text has few digits is kept.
* `Ledger.read_write_of_brief`: A ledger with such times is read back.
-/

namespace PackageIndex

/-- Some rank has twice the units of another, at most a run further on. -/
theorem exists_double (r : Nat) : ∃ t ≤ r + runLength, unitsOfRank t = 2 * unitsOfRank r := by
  rcases exists_run r with ⟨k, f, hr, hlow, hhigh⟩
  by_cases hfirst : f < runLength
  · -- In the first half of the first run the place is doubled.
    have hk : k = 0 := hlow.resolve_right (Nat.not_le_of_lt hfirst)
    have hrank : r = 0 * runLength + f := by rw [hr, hk]
    refine ⟨0 * runLength + 2 * f, by omega, ?_⟩
    rw [hrank, unitsOfRank_run (Or.inl rfl) (by omega), unitsOfRank_run (Or.inl rfl) (by omega)]
    ring
  · -- Everywhere else the run is.
    have hf : runLength ≤ f := Nat.le_of_not_lt hfirst
    refine ⟨(k + 1) * runLength + f, ?_, ?_⟩
    · rw [hr, Nat.add_mul]
      omega
    · rw [hr, unitsOfRank_run (Or.inr hf) (by omega), unitsOfRank_run (Or.inr hf) (by omega)]
      ring

/-- A number of fifty-three bits, doubled a number of times, is the units of a
    rank. -/
theorem exists_unitsOfRank_eq {n : Nat} (hn : n ≤ 2 * runLength) (k : Nat) :
    ∃ t ≤ (k + 2) * runLength, unitsOfRank t = n * 2 ^ k := by
  induction k with
  | zero =>
      refine ⟨0 * runLength + n, by omega, ?_⟩
      exact unitsOfRank_run (Or.inl rfl) hn
  | succ k ih =>
      rcases ih with ⟨r, hr, hunits⟩
      rcases exists_double r with ⟨t, ht, hdouble⟩
      refine ⟨t, ?_, ?_⟩
      · rw [show k + 1 + 2 = k + 2 + 1 by omega, Nat.succ_mul]
        omega
      · rw [hdouble, hunits]
        ring

namespace Magnitude

/-- A number of fifty-three bits, doubled not too often, is a magnitude. -/
theorem exists_units_eq {n k : Nat} (hn : n ≤ 2 ^ 53) (hk : k ≤ 2000) :
    ∃ m : Magnitude, m.units = n * 2 ^ k := by
  have hrun : 2 * runLength = 2 ^ 53 := by
    rw [runLength_eq]
    norm_num
  rcases exists_unitsOfRank_eq (hrun ▸ hn) k with ⟨t, ht, hunits⟩
  have hpos := runLength_pos
  have hlt : (k + 2) * runLength < 2047 * runLength := Nat.mul_lt_mul_of_pos_right (by omega) hpos
  exact ⟨⟨t, Nat.lt_of_le_of_lt ht hlt⟩, hunits⟩

/-- A whole number that is a magnitude is not changed by rounding. -/
theorem ofNat_eq_some {n : Nat} {m : Magnitude} (h : m.units = n * unitsOfOne) :
    ofNat n = some m := by
  rw [ofNat, ← h]
  exact nearest_units m

/-- A number of fifty-three bits is not changed by rounding. -/
theorem exists_ofNat_eq {n : Nat} (hn : n ≤ 2 ^ 53) :
    ∃ m, ofNat n = some m ∧ m.units = n * unitsOfOne := by
  have hunit : unitExponent ≤ 2000 := by decide
  rcases exists_units_eq hn hunit with ⟨m, hm⟩
  rw [← unitsOfOne_eq] at hm
  exact ⟨m, ofNat_eq_some hm, hm⟩

/-- A small power of ten is not changed by rounding. -/
theorem exists_ofNat_pow_eq {k : Nat} (hk : k ≤ 22) :
    ∃ m, ofNat (Nat.pow 10 k) = some m ∧ m.units = 10 ^ k * unitsOfOne := by
  have hfive : 5 ^ k ≤ 2 ^ 53 :=
    Nat.le_trans (Nat.pow_le_pow_right (by omega) hk) (by decide)
  have hunit : k + unitExponent ≤ 2000 := by
    have : unitExponent = 1074 := rfl
    omega
  rcases exists_units_eq hfive hunit with ⟨m, hm⟩
  have hten : m.units = 10 ^ k * unitsOfOne := by
    rw [hm, unitsOfOne_eq, show 10 = 5 * 2 by rfl, Nat.mul_pow, Nat.pow_add, Nat.mul_assoc]
  exact ⟨m, ofNat_eq_some hten, hten⟩

end Magnitude

namespace Json

open Magnitude

/-- A number with few digits and a small power of ten is read correctly. -/
theorem scaled_eq_some {n : Nat} {exponent : Int} {m : Magnitude} (hn : n ≤ 2 ^ 53)
    (hlow : -22 ≤ exponent) (hhigh : exponent ≤ 22)
    (h : Rounds m.rank (n * 10 ^ (exponent + unitExponent).toNat) placesOfUnit) :
    scaled n exponent = some m := by
  have hunit := unitsOfOne_mul_placesOfUnit
  rcases exists_ofNat_eq hn with ⟨a, ha, hua⟩
  rw [scaled, ha, Option.bind_eq_bind, Option.bind_some]
  by_cases hneg : exponent < 0
  · rcases exists_ofNat_pow_eq (show exponent.natAbs ≤ 22 by omega) with ⟨b, hb, hub⟩
    have hsteps : (exponent.natAbs - 1) / tablePower = 0 := by
      unfold tablePower
      omega
    have hpos : 0 < b.units := by
      rw [hub]
      exact Nat.mul_pos (Nat.pow_pos (by omega)) unitsOfOne_pos
    rw [if_neg (by omega)]
    dsimp only
    rw [hsteps, divideOut, Option.bind_some, Nat.zero_mul, Nat.sub_zero, overPower, hb,
      Option.bind_eq_bind, Option.bind_some, Magnitude.div, nearest_eq_some_iff hpos]
    refine Rounds.of_cross placesOfUnit_pos hpos ?_ h
    -- The power of ten and the last place there is cancel.
    have hplace : (exponent + unitExponent).toNat + exponent.natAbs = unitExponent := by
      have : unitExponent = 1074 := rfl
      omega
    rw [hua, hub]
    calc n * 10 ^ (exponent + unitExponent).toNat * (10 ^ exponent.natAbs * unitsOfOne)
        = n * 10 ^ ((exponent + unitExponent).toNat + exponent.natAbs) * unitsOfOne := by
          rw [Nat.pow_add]
          ring
      _ = n * (unitsOfOne * placesOfUnit) * unitsOfOne := by rw [hplace, hunit]
      _ = n * unitsOfOne * unitsOfOne * placesOfUnit := by ring
  · rcases exists_ofNat_pow_eq (show exponent.toNat ≤ 22 by omega) with ⟨b, hb, hub⟩
    have htable : exponent ≤ (tablePower : Int) := by
      unfold tablePower
      omega
    rw [if_pos (by omega), if_pos htable, timesPower, hb, Option.bind_eq_bind, Option.bind_some,
      Magnitude.mul, nearest_eq_some_iff unitsOfOne_pos]
    refine Rounds.of_cross placesOfUnit_pos unitsOfOne_pos ?_ h
    have hplace : (exponent + unitExponent).toNat = exponent.toNat + unitExponent := by omega
    rw [hua, hub, hplace]
    calc n * 10 ^ (exponent.toNat + unitExponent) * unitsOfOne
        = n * 10 ^ exponent.toNat * unitsOfOne * 10 ^ unitExponent := by
          rw [Nat.pow_add]
          ring
      _ = n * 10 ^ exponent.toNat * unitsOfOne * (unitsOfOne * placesOfUnit) := by rw [hunit]
      _ = n * unitsOfOne * (10 ^ exponent.toNat * unitsOfOne) * placesOfUnit := by ring

end Json

namespace Binary64

/-- A time whose text has few digits: as a whole number they have fifty-three
    bits, and the power of ten they are scaled by is one of the first
    twenty-two. -/
def Brief : Binary64 → Prop
  | .finite negative m =>
    (Revision.spellingOf negative m).coefficient ≤ 2 ^ 53 ∧
      -22 ≤ (Revision.spellingOf negative m).exponent ∧
      (Revision.spellingOf negative m).exponent ≤ 22
  | _ => False

instance : DecidablePred Brief
  | .nan => inferInstanceAs (Decidable False)
  | .infinite _ => inferInstanceAs (Decidable False)
  | .finite _ _ => inferInstanceAs (Decidable (_ ∧ _ ∧ _))

/-- A time whose text has few digits is kept. -/
theorem reread_eq_self {x : Binary64} (h : x.Brief) : x.reread = x := by
  cases x with
  | nan => exact h.elim
  | infinite negative => exact h.elim
  | finite negative m =>
      rcases h with ⟨hdigits, hlow, hhigh⟩
      -- What was written rounds to the time that it was written for.
      have hround := m.rounds_shortest .even
      rw [← Revision.places_spellingOf negative m] at hround
      have hsome : m.reread = some m := by
        rw [Revision.reread_eq negative m]
        exact Json.scaled_eq_some hdigits hlow hhigh hround
      simp only [reread, hsome, Option.get_some]

theorem isFinite_of_brief {x : Binary64} (h : x.Brief) : x.isFinite = true := by
  cases x with
  | nan => exact h.elim
  | infinite negative => exact h.elim
  | finite negative m => rfl

/-- A time of the year 2023, to the microsecond. -/
example : Brief (.nearest false (1699087017418388 * unitsOfOne) 1000000) := by decide +kernel

end Binary64

namespace Ledger

/-- A ledger whose times have few digits is read back from its text. -/
theorem read_write_of_brief {l : Ledger} (h : l.Times Binary64.Brief) : read l.write = .ok l := by
  have hfinite : l.Finite := fun r hr => Binary64.isFinite_of_brief (h r hr)
  rw [read_write hfinite, l.reread_eq_self_iff.mpr fun r hr => Binary64.reread_eq_self (h r hr)]

end Ledger

end PackageIndex
