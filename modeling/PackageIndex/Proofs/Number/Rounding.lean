import Mathlib.Tactic.Linarith
import Mathlib.Tactic.Ring
import PackageIndex.Number.Shortest

/-!
# Rounding to the Nearest Magnitude

What `Magnitude.nearest` finds, stated without the way it is found.

A ratio rounds to a rank when it lies between the halfway points to the two
neighbours, and on a halfway point only if the rank is even. That is
`Rounds`, and it is stated for ranks and not for magnitudes, because the
rank just above the last finite one has an interval too: what falls into it,
or beyond, is too large.

The intervals of different ranks have no point in common (`rounds_unique`),
and the rank that `nearest` computes is one whose interval holds the ratio
(`rounds_nearestRank`). Together the two say that `nearest` finds a magnitude
exactly if its interval holds the ratio (`nearest_eq_some_iff`). Everything
later that needs to know about rounding needs only this.

The computation works in a run of ranks at a time, over which the units
count up by a fixed power of two. A rank is therefore taken apart into the
number of doublings and a count within the run (`exists_run`), and its units
are the product (`unitsOfRank_run`). The count may be one past the end of the
run, where it names the first rank of the next one. That is why a carry needs
no case.

## Main definitions

* `Rounds`: A ratio of units lies in the interval of a rank.
* `Magnitude.nearestRank`: The rank that rounding computes.
* `overflowUnits`: Twice the units from which on nothing is finite.

## Theorems

* `unitsOfRank_run`: The units of a rank, by doublings and count.
* `exists_run`: Every rank has doublings and a count.
* `unitsOfRank_lt_succ`: The units ascend.
* `unitsOfRank_le_gap`: A magnitude is at most `2 ^ 53` gaps.
* `Rounds.of_cross`: Rounding depends on the ratio alone.
* `rounds_unique`: A ratio rounds to one rank only.
* `rounds_nearestRank`: A ratio rounds to the rank computed for it.
* `nearest_eq_some_iff`: Rounding finds the magnitude whose interval holds
  the ratio.
* `nearest_isSome_iff`: Rounding fails only beyond the last halfway point.
* `units_le_of_nearest`: Rounding does not go below a magnitude that is not
  above the ratio.
* `rounds_units`, `nearest_units`: A magnitude rounds to itself.
* `units_mul_le_of_nearest`: Rounding adds at most one part in `2 ^ 53`.
* `Binary64.nearest_rounds`: A ratio becomes finite or infinite.
-/

namespace PackageIndex

theorem runLength_eq : runLength = 4503599627370496 := rfl

theorem runLength_pos : 0 < runLength := by
  rw [runLength_eq]
  omega

theorem unitsOfRank_zero : unitsOfRank 0 = 0 := by decide

/-- The units of a rank, by how often its run has been doubled and where in
    the run it stands. The place may be one past the end. -/
theorem unitsOfRank_run {k f : Nat} (hlow : k = 0 ∨ runLength ≤ f) (hhigh : f ≤ 2 * runLength) :
    unitsOfRank (k * runLength + f) = f * 2 ^ k := by
  have hpos := runLength_pos
  by_cases hend : f = 2 * runLength
  · -- One past the end: the rank is the first of the next run.
    have hrank : k * runLength + f = (k + 2) * runLength := by
      rw [hend]
      ring
    have hdiv : (k + 2) * runLength / runLength - 1 = k + 1 := by
      rw [Nat.mul_div_cancel _ hpos]
      omega
    have hrest : (k + 2) * runLength - (k + 1) * runLength = runLength := by
      rw [← Nat.sub_mul, show k + 2 - (k + 1) = 1 by omega, Nat.one_mul]
    unfold unitsOfRank
    rw [hrank, hdiv]
    simp only
    rw [hrest, Nat.pow_eq, Nat.pow_succ, hend]
    ring
  · have hdiv : (k * runLength + f) / runLength - 1 = k := by
      rw [Nat.mul_comm, Nat.mul_add_div hpos]
      rcases hlow with hk | hf
      · have : f / runLength < 2 := (Nat.div_lt_iff_lt_mul hpos).mpr (by omega)
        omega
      · have : f / runLength = 1 := by
          rw [Nat.div_eq_iff hpos]
          omega
        omega
    unfold unitsOfRank
    rw [hdiv]
    simp only
    rw [Nat.add_sub_cancel_left, Nat.pow_eq]

/-- Every rank has doublings and a place in its run before the end. -/
theorem exists_run (r : Nat) :
    ∃ k f, r = k * runLength + f ∧ (k = 0 ∨ runLength ≤ f) ∧ f < 2 * runLength := by
  have hpos := runLength_pos
  have hmod := Nat.div_add_mod r runLength
  have hlt := Nat.mod_lt r hpos
  rcases Nat.eq_zero_or_pos (r / runLength) with hq | hq
  · rw [hq, Nat.mul_zero] at hmod
    exact ⟨0, r, by omega, Or.inl rfl, by omega⟩
  · have hsplit : runLength * (r / runLength) =
        (r / runLength - 1) * runLength + runLength := by
      rw [← Nat.succ_mul, Nat.succ_eq_add_one, Nat.sub_add_cancel hq, Nat.mul_comm]
    exact ⟨r / runLength - 1, runLength + r % runLength, by omega, Or.inr (by omega), by omega⟩

/-- The gap above a rank is a power of two, of which its successor has at most
    `2 ^ 53`. Beyond the first run the rank itself has at least `2 ^ 52`, and
    in the first run the power is one. -/
theorem unitsOfRank_succ (r : Nat) :
    ∃ k f, f < 2 * runLength ∧ unitsOfRank r = f * 2 ^ k ∧
      unitsOfRank (r + 1) = (f + 1) * 2 ^ k ∧ (k = 0 ∨ runLength ≤ f) := by
  obtain ⟨k, f, hr, hlow, hhigh⟩ := exists_run r
  refine ⟨k, f, hhigh, ?_, ?_, hlow⟩
  · rw [hr]
    exact unitsOfRank_run hlow (by omega)
  · rw [hr, Nat.add_assoc]
    exact unitsOfRank_run (hlow.imp_right (by omega)) (by omega)

theorem unitsOfRank_lt_succ (r : Nat) : unitsOfRank r < unitsOfRank (r + 1) := by
  obtain ⟨k, f, -, hr, hs, -⟩ := unitsOfRank_succ r
  rw [hr, hs]
  exact Nat.mul_lt_mul_of_pos_right (by omega) (Nat.two_pow_pos k)

theorem unitsOfRank_strictMono : StrictMono unitsOfRank :=
  strictMono_nat_of_lt_succ unitsOfRank_lt_succ

/-- A magnitude is at most `2 ^ 53` of the gaps below it. -/
theorem unitsOfRank_le_gap (r : Nat) :
    unitsOfRank (r + 1) ≤ 2 ^ 53 * (unitsOfRank (r + 1) - unitsOfRank r) := by
  obtain ⟨k, f, hf, hr, hs, -⟩ := unitsOfRank_succ r
  have hgap : unitsOfRank (r + 1) - unitsOfRank r = 2 ^ k := by
    rw [hr, hs, Nat.add_mul, Nat.add_sub_cancel_left, Nat.one_mul]
  rw [hgap, hs]
  refine Nat.mul_le_mul_right _ ?_
  rw [runLength_eq] at hf
  omega

/-- Whether `n / d` units round to a rank: they lie between the halfway points
    to its neighbours, and on one of those only if the rank is even. -/
structure Rounds (r n d : Nat) : Prop where
  lower : (unitsOfRank (r - 1) + unitsOfRank r) * d ≤ 2 * n
  upper : 2 * n ≤ (unitsOfRank r + unitsOfRank (r + 1)) * d
  lower_odd : r % 2 = 1 → (unitsOfRank (r - 1) + unitsOfRank r) * d < 2 * n
  upper_odd : r % 2 = 1 → 2 * n < (unitsOfRank r + unitsOfRank (r + 1)) * d

/-- Rounding depends on the ratio alone. -/
theorem Rounds.of_cross {r n d n' d' : Nat} (hd : 0 < d) (hd' : 0 < d') (hcross : n * d' = n' * d)
    (h : Rounds r n d) : Rounds r n' d' := by
  -- Both kinds of bound carry over by multiplying with the other denominator.
  have hle : ∀ u, u * d ≤ 2 * n → u * d' ≤ 2 * n' := by
    intro u hu
    refine Nat.le_of_mul_le_mul_right ?_ hd
    calc u * d' * d = u * d * d' := by ring
      _ ≤ 2 * n * d' := Nat.mul_le_mul_right d' hu
      _ = 2 * n' * d := by rw [Nat.mul_assoc, hcross, Nat.mul_assoc]
  have hge : ∀ u, 2 * n ≤ u * d → 2 * n' ≤ u * d' := by
    intro u hu
    refine Nat.le_of_mul_le_mul_right ?_ hd
    calc 2 * n' * d = 2 * n * d' := by rw [Nat.mul_assoc, ← hcross, Nat.mul_assoc]
      _ ≤ u * d * d' := Nat.mul_le_mul_right d' hu
      _ = u * d' * d := by ring
  -- A strict bound is the other bound failing, read in the other direction.
  have hback : ∀ u, u * d' = 2 * n' → u * d = 2 * n := by
    intro u hu
    refine Nat.eq_of_mul_eq_mul_right hd' ?_
    calc u * d * d' = u * d' * d := by ring
      _ = 2 * n * d' := by rw [hu, Nat.mul_assoc, ← hcross, Nat.mul_assoc]
  refine ⟨hle _ h.lower, hge _ h.upper, fun hodd => ?_, fun hodd => ?_⟩
  · refine Nat.lt_of_le_of_ne (hle _ h.lower) fun heq => ?_
    have := h.lower_odd hodd
    have := hback _ heq
    omega
  · refine Nat.lt_of_le_of_ne (hge _ h.upper) fun heq => ?_
    have := h.upper_odd hodd
    have := hback _ heq.symm
    omega

/-- The halfway points between two ranks that are not neighbours ascend. -/
theorem halfway_lt {r t : Nat} (h : r + 1 < t) :
    unitsOfRank r + unitsOfRank (r + 1) < unitsOfRank (t - 1) + unitsOfRank t := by
  have h1 := unitsOfRank_strictMono.monotone (show r + 1 ≤ t - 1 by omega)
  have h2 := unitsOfRank_lt_succ (t - 1)
  have h3 := unitsOfRank_lt_succ r
  rw [show t - 1 + 1 = t by omega] at h2
  omega

theorem not_rounds_of_lt {r t n d : Nat} (hd : 0 < d) (hlt : r < t) (hr : Rounds r n d)
    (ht : Rounds t n d) : False := by
  -- The two intervals could only meet in the halfway point of two neighbours,
  -- and of two neighbours one is odd.
  have hmeet := Nat.le_trans ht.lower hr.upper
  by_cases hnext : r + 1 < t
  · have := Nat.mul_lt_mul_of_pos_right (halfway_lt hnext) hd
    omega
  · have ht1 : t = r + 1 := by omega
    subst ht1
    -- The odd one of the two does not take their halfway point.
    rcases Nat.mod_two_eq_zero_or_one r with heven | hodd
    · have hup := hr.upper
      have hlow := ht.lower_odd (by omega)
      rw [Nat.add_sub_cancel] at hlow
      omega
    · have hup := hr.upper_odd hodd
      have hlow := ht.lower
      rw [Nat.add_sub_cancel] at hlow
      omega

/-- A ratio rounds to one rank only. -/
theorem rounds_unique {r t n d : Nat} (hd : 0 < d) (hr : Rounds r n d) (ht : Rounds t n d) :
    r = t := by
  rcases Nat.lt_trichotomy r t with hlt | heq | hgt
  · exact (not_rounds_of_lt hd hlt hr ht).elim
  · exact heq
  · exact (not_rounds_of_lt hd hgt ht hr).elim

/-- A quotient rounded to the nearest whole number is off by at most a half,
    and by less if the whole number is odd. -/
theorem roundDiv_bounds (n : Nat) {d : Nat} (hd : 0 < d) :
    2 * n ≤ (2 * roundDiv n d + 1) * d ∧ 2 * roundDiv n d * d ≤ 2 * n + d ∧
      (roundDiv n d % 2 = 1 →
        2 * n < (2 * roundDiv n d + 1) * d ∧ 2 * roundDiv n d * d < 2 * n + d) := by
  have hmod := Nat.div_add_mod n d
  have hlt := Nat.mod_lt n hd
  unfold roundDiv
  generalize n / d = q at *
  generalize n % d = m at *
  -- With the product as one atom, everything is linear.
  have hdown : 2 * q * d = 2 * (d * q) := by ring
  have hhalf : (2 * q + 1) * d = 2 * (d * q) + d := by ring
  have hup : 2 * (q + 1) * d = 2 * (d * q) + 2 * d := by ring
  have hover : (2 * (q + 1) + 1) * d = 2 * (d * q) + 3 * d := by ring
  simp only
  split
  · rename_i hcmp
    have := Nat.compare_eq_lt.mp hcmp
    omega
  · rename_i hcmp
    have := Nat.compare_eq_gt.mp hcmp
    omega
  · rename_i hcmp
    have := Nat.compare_eq_eq.mp hcmp
    -- On a tie the parity of the quotient decides, and the result is even.
    rcases Nat.mod_two_eq_zero_or_one q with hpar | hpar
    · simp only [hpar, Nat.add_zero]
      omega
    · rw [hpar]
      omega

/-- How far a quotient in units has to be doubled down to reach a run. -/
theorem log2_run {q : Nat} : (q.log2 - 52 = 0 ∧ q < 2 * runLength) ∨
    (0 < q.log2 - 52 ∧ runLength * 2 ^ (q.log2 - 52) ≤ q ∧
      q < 2 * runLength * 2 ^ (q.log2 - 52)) := by
  have hrun : runLength = 2 ^ 52 := rfl
  have hup := Nat.lt_log2_self (n := q)
  by_cases h : q.log2 ≤ 52
  · left
    refine ⟨by omega, Nat.lt_of_lt_of_le hup ?_⟩
    calc 2 ^ (q.log2 + 1) ≤ 2 ^ 53 := Nat.pow_le_pow_right (by omega) (by omega)
      _ = 2 * runLength := rfl
  · right
    have hq : q ≠ 0 := fun hc => h (by simp [hc])
    have hlow := Nat.log2_self_le hq
    have hsplit : q.log2 = 52 + (q.log2 - 52) := by omega
    refine ⟨by omega, ?_, ?_⟩
    · rw [hrun, ← Nat.pow_add, ← hsplit]
      exact hlow
    · rw [hrun, ← Nat.pow_succ', ← Nat.pow_add,
        show 52 + 1 + (q.log2 - 52) = q.log2 + 1 by omega]
      exact hup

namespace Magnitude

/-- The rank that rounding computes, finite or not. -/
def nearestRank (n d : Nat) : Nat :=
  let doublings := (n / d).log2 - 52
  doublings * runLength + roundDiv n (d * 2 ^ doublings)

theorem nearest_eq (n d : Nat) : nearest n d =
    if h : nearestRank n d < 2047 * runLength then some ⟨nearestRank n d, h⟩ else none := rfl

end Magnitude

/-- The place in the run that rounding finds, which may be one past its
    end. -/
theorem roundDiv_run (n : Nat) {d k : Nat} (hd : 0 < d)
    (hk : (k = 0 ∧ n / d < 2 * runLength) ∨
      (0 < k ∧ runLength * 2 ^ k ≤ n / d ∧ n / d < 2 * runLength * 2 ^ k)) :
    (k = 0 ∨ runLength ≤ roundDiv n (d * 2 ^ k)) ∧ roundDiv n (d * 2 ^ k) ≤ 2 * runLength := by
  have hpow := Nat.two_pow_pos k
  have he : 0 < d * 2 ^ k := Nat.mul_pos hd hpow
  have hdiv : n / (d * 2 ^ k) = n / d / 2 ^ k := (Nat.div_div_eq_div_mul n d (2 ^ k)).symm
  -- Rounding moves the quotient up by at most one.
  have hbounds : n / (d * 2 ^ k) ≤ roundDiv n (d * 2 ^ k) ∧
      roundDiv n (d * 2 ^ k) ≤ n / (d * 2 ^ k) + 1 := by
    have hmod := Nat.mod_two_eq_zero_or_one (n / (d * 2 ^ k))
    unfold roundDiv
    simp only
    split <;> omega
  rcases hk with ⟨hzero, hlt⟩ | ⟨-, hlow, hhigh⟩
  · rw [hdiv, hzero, Nat.pow_zero, Nat.div_one] at hbounds
    rw [hzero, Nat.pow_zero]
    exact ⟨Or.inl rfl, by omega⟩
  · have h1 := (Nat.le_div_iff_mul_le hpow).mpr hlow
    have h2 := (Nat.div_lt_iff_lt_mul hpow).mpr hhigh
    rw [hdiv] at hbounds
    exact ⟨Or.inr (by omega), by omega⟩

/-- The halfway point above a rank is at least half a gap away. -/
theorem halfway_above {k f : Nat} (hlow : k = 0 ∨ runLength ≤ f) (hhigh : f ≤ 2 * runLength) :
    (2 * f + 1) * 2 ^ k ≤
      unitsOfRank (k * runLength + f) + unitsOfRank (k * runLength + f + 1) := by
  have hnext : (f + 1) * 2 ^ k ≤ unitsOfRank (k * runLength + f + 1) := by
    by_cases hend : f = 2 * runLength
    · -- Past the end of the run the gap has doubled.
      have hpos := runLength_pos
      have hrank : k * runLength + f + 1 = (k + 1) * runLength + (runLength + 1) := by
        rw [hend]
        ring
      rw [hrank, unitsOfRank_run (Or.inr (by omega)) (by omega), Nat.pow_succ, hend]
      have := Nat.two_pow_pos k
      nlinarith
    · rw [Nat.add_assoc, unitsOfRank_run (hlow.imp_right (by omega)) (by omega)]
  rw [unitsOfRank_run hlow hhigh]
  calc (2 * f + 1) * 2 ^ k = f * 2 ^ k + (f + 1) * 2 ^ k := by ring
    _ ≤ _ := Nat.add_le_add_left hnext _

/-- The halfway point below a rank is half a gap away, unless the rank is the
    first of its run. -/
theorem halfway_below {k f : Nat} (hf : 0 < f) (hlow : k = 0 ∨ runLength < f)
    (hhigh : f ≤ 2 * runLength) :
    unitsOfRank (k * runLength + f - 1) + unitsOfRank (k * runLength + f) + 2 ^ k =
      2 * f * 2 ^ k := by
  obtain ⟨g, rfl⟩ : ∃ g, f = g + 1 := ⟨f - 1, by omega⟩
  have hprev : k * runLength + (g + 1) - 1 = k * runLength + g := by omega
  rw [hprev, unitsOfRank_run (hlow.imp_right (by omega)) (by omega : g ≤ 2 * runLength),
    unitsOfRank_run (hlow.imp_right (by omega)) hhigh]
  ring

/-- A ratio rounds to the rank computed for it. -/
theorem rounds_nearestRank (n : Nat) {d : Nat} (hd : 0 < d) :
    Rounds (Magnitude.nearestRank n d) n d := by
  have hk := log2_run (q := n / d)
  unfold Magnitude.nearestRank
  simp only
  generalize (n / d).log2 - 52 = k at *
  obtain ⟨hlow, hhigh⟩ := roundDiv_run n hd hk
  obtain ⟨hup, hdown, hodd⟩ := roundDiv_bounds n (Nat.mul_pos hd (Nat.two_pow_pos k))
  generalize roundDiv n (d * 2 ^ k) = f at *
  have hparity : (k * runLength + f) % 2 = f % 2 := by
    rw [runLength_eq]
    omega
  have habove := Nat.mul_le_mul_right d (halfway_above hlow hhigh)
  rw [show (2 * f + 1) * 2 ^ k * d = (2 * f + 1) * (d * 2 ^ k) by ring] at habove
  by_cases hstart : f = 0 ∨ 0 < k ∧ f = runLength
  · -- The first rank of a run, which is even. The ratio is not below the rank.
    have heven : f % 2 = 0 := by
      rw [runLength_eq] at hstart
      omega
    refine ⟨?_, Nat.le_trans hup habove, fun h => by omega, fun h => by omega⟩
    rcases hstart with hf | ⟨hkpos, hf⟩
    · have hkz : k = 0 := hlow.resolve_right (by have := runLength_pos; omega)
      rw [hf, hkz]
      simp [unitsOfRank_zero]
    · have hq : runLength * 2 ^ k ≤ n / d := (hk.resolve_left (by omega)).2.1
      have hn := (Nat.le_div_iff_mul_le hd).mp hq
      have hunits := unitsOfRank_run hlow hhigh
      have hmono := unitsOfRank_strictMono.monotone
        (show k * runLength + f - 1 ≤ k * runLength + f by omega)
      calc (unitsOfRank (k * runLength + f - 1) + unitsOfRank (k * runLength + f)) * d
          ≤ (runLength * 2 ^ k + runLength * 2 ^ k) * d := by
            refine Nat.mul_le_mul_right d ?_
            rw [hunits, hf] at hmono
            rw [hunits, hf]
            exact Nat.add_le_add_right hmono _
        _ = 2 * (runLength * 2 ^ k * d) := by ring
        _ ≤ 2 * n := Nat.mul_le_mul_left 2 hn
  · -- Any other rank has a gap of the same size below.
    have hbelow := congrArg (· * d) (halfway_below (k := k) (f := f) (by omega) (by omega) hhigh)
    simp only [Nat.add_mul _ (2 ^ k) d] at hbelow
    rw [show 2 * f * 2 ^ k * d = 2 * f * (d * 2 ^ k) by ring, Nat.mul_comm (2 ^ k) d] at hbelow
    refine ⟨by omega, Nat.le_trans hup habove, fun h => ?_, fun h => ?_⟩
    · rw [hparity] at h
      have := hodd h
      omega
    · rw [hparity] at h
      exact Nat.lt_of_lt_of_le (hodd h).1 habove

namespace Magnitude

/-- Rounding finds the magnitude whose interval holds the ratio. -/
theorem nearest_eq_some_iff {n d : Nat} (hd : 0 < d) (m : Magnitude) :
    nearest n d = some m ↔ Rounds m.rank n d := by
  have hround := rounds_nearestRank n hd
  rw [nearest_eq]
  constructor
  · intro h
    split at h
    · rw [← Option.some.inj h]
      exact hround
    · exact absurd h (by simp)
  · intro h
    have hrank := rounds_unique hd hround h
    have hlt := m.rank_lt
    rw [dif_pos (by omega)]
    congr

/-- Twice the number of units from which on nothing is finite. -/
def overflowUnits : Nat :=
  unitsOfRank (2047 * runLength - 1) + unitsOfRank (2047 * runLength)

/-- Rounding fails only from the last halfway point on. -/
theorem nearest_isSome_iff {n d : Nat} (hd : 0 < d) :
    (nearest n d).isSome = true ↔ 2 * n < overflowUnits * d := by
  have hround := rounds_nearestRank n hd
  rw [nearest_eq]
  unfold overflowUnits
  by_cases hlt : nearestRank n d < 2047 * runLength
  · rw [dif_pos hlt]
    refine iff_of_true rfl ?_
    by_cases hlast : nearestRank n d + 1 = 2047 * runLength
    · -- The last finite rank is odd.
      have hodd : nearestRank n d % 2 = 1 := by
        rw [runLength_eq] at hlast
        omega
      rw [← hlast, Nat.add_sub_cancel]
      exact hround.upper_odd hodd
    · exact Nat.lt_of_le_of_lt hround.upper
        (Nat.mul_lt_mul_of_pos_right (halfway_lt (by omega)) hd)
  · -- The interval of any rank beyond the last lies above the last halfway point.
    rw [dif_neg hlt]
    refine iff_of_false (by simp) (Nat.not_lt.mpr (Nat.le_trans ?_ hround.lower))
    have h1 := unitsOfRank_strictMono.monotone
      (show 2047 * runLength - 1 ≤ nearestRank n d - 1 by omega)
    have h2 := unitsOfRank_strictMono.monotone
      (show 2047 * runLength ≤ nearestRank n d by omega)
    exact Nat.mul_le_mul_right d (Nat.add_le_add h1 h2)

/-- Every magnitude stays below the last halfway point. -/
theorem two_mul_units_lt (m : Magnitude) : 2 * m.units < overflowUnits := by
  have h1 := unitsOfRank_strictMono.monotone
    (show m.rank ≤ 2047 * runLength - 1 by have := m.rank_lt; omega)
  have h2 := unitsOfRank_strictMono m.rank_lt
  unfold units overflowUnits
  omega

/-- Rounding does not go below a magnitude that is not above the ratio. -/
theorem units_le_of_nearest {n d : Nat} (hd : 0 < d) {m b : Magnitude} (hm : m.units * d ≤ n)
    (h : nearest n d = some b) : m.units ≤ b.units := by
  have hround := (nearest_eq_some_iff hd b).mp h
  refine Nat.le_of_not_lt fun hlt => ?_
  unfold units at hm hlt
  -- The halfway point above the result is below the magnitude.
  have hrank : b.rank + 1 ≤ m.rank := unitsOfRank_strictMono.lt_iff_lt.mp hlt
  have hnext := unitsOfRank_strictMono.monotone hrank
  have hhalf : (unitsOfRank b.rank + unitsOfRank (b.rank + 1)) * d < 2 * (unitsOfRank m.rank * d) :=
    by
      rw [← Nat.mul_assoc]
      exact Nat.mul_lt_mul_of_pos_right (by omega) hd
  have := hround.upper
  omega

/-- A magnitude's own units round to it. -/
theorem rounds_units (m : Magnitude) : Rounds m.rank m.units 1 := by
  have hup := unitsOfRank_lt_succ m.rank
  have hdown := unitsOfRank_strictMono.monotone (Nat.sub_le m.rank 1)
  unfold units
  refine ⟨by omega, by omega, fun hodd => ?_, fun _ => by omega⟩
  have hlt := unitsOfRank_strictMono (show m.rank - 1 < m.rank by omega)
  omega

theorem nearest_units (m : Magnitude) : nearest m.units 1 = some m :=
  (nearest_eq_some_iff Nat.one_pos m).mpr m.rounds_units

/-- Rounding a ratio of at least a run of units adds at most one part in
    `2 ^ 53`. -/
theorem units_mul_le_of_nearest {n d : Nat} (hd : 0 < d) (hn : runLength * d ≤ n) {m : Magnitude}
    (h : nearest n d = some m) : m.units * d * 2 ^ 53 ≤ n * (2 ^ 53 + 1) := by
  have hround := (nearest_eq_some_iff hd m).mp h
  unfold units
  rcases Nat.eq_zero_or_pos m.rank with hzero | hpos
  · rw [hzero, unitsOfRank_zero, Nat.zero_mul, Nat.zero_mul]
    exact Nat.zero_le _
  obtain ⟨r, hr⟩ : ∃ r, m.rank = r + 1 := ⟨m.rank - 1, by omega⟩
  obtain ⟨k, f, -, hlow, hhigh, hrun⟩ := unitsOfRank_succ r
  have hhalf := hround.lower
  rw [hr, Nat.add_sub_cancel, hlow, hhigh] at hhalf
  -- The gap below the magnitude goes into the ratio at least `2 ^ 52` times.
  have hgap : runLength * 2 ^ k * d ≤ n := by
    rcases hrun with hk | hf
    · rw [hk, Nat.pow_zero, Nat.mul_one]
      exact hn
    · have h1 : runLength * 2 ^ k * d ≤ f * 2 ^ k * d :=
        Nat.mul_le_mul_right d (Nat.mul_le_mul_right _ hf)
      have h2 : (f * 2 ^ k + (f + 1) * 2 ^ k) * d = 2 * (f * 2 ^ k * d) + 2 ^ k * d := by ring
      omega
  rw [hr, hhigh]
  -- Half a gap is what rounding can add.
  have h1 : (f * 2 ^ k + (f + 1) * 2 ^ k) * d = 2 * ((f + 1) * 2 ^ k * d) - 2 ^ k * d := by
    rw [show 2 * ((f + 1) * 2 ^ k * d) = (f * 2 ^ k + (f + 1) * 2 ^ k) * d + 2 ^ k * d by ring,
      Nat.add_sub_cancel]
  have h2 : runLength * 2 ^ k * d = 2 ^ 52 * (2 ^ k * d) := by
    rw [Nat.mul_assoc]
    rfl
  generalize (f + 1) * 2 ^ k * d = u at *
  generalize 2 ^ k * d = g at *
  omega

end Magnitude

namespace Binary64

/-- A ratio is rounded to the finite number whose interval holds it. From the last
    halfway point on there is none, and it is infinite. -/
theorem nearest_rounds (negative : Bool) {n d : Nat} (hd : 0 < d) :
    (∃ m, nearest negative n d = .finite negative m ∧ Rounds m.rank n d) ∨
      nearest negative n d = .infinite negative ∧ Magnitude.overflowUnits * d ≤ 2 * n := by
  have hfinite := Magnitude.nearest_isSome_iff (n := n) hd
  rw [nearest]
  cases hnearest : Magnitude.nearest n d with
  | some m => exact Or.inl ⟨m, rfl, (Magnitude.nearest_eq_some_iff hd m).mp hnearest⟩
  | none =>
      rw [hnearest, Option.isSome_none] at hfinite
      exact Or.inr ⟨rfl, Nat.le_of_not_lt fun hlt => absurd (hfinite.mpr hlt) Bool.false_ne_true⟩

end Binary64

end PackageIndex
