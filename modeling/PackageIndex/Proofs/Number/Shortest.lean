import PackageIndex.Proofs.Number.Rounding

/-!
# What a Shortest Decimal Identifies

The search for a shortest decimal ends with one that rounds to the magnitude
it was made for. This is the whole connection between a number and its
digits: a reader that rounds correctly gets the number back, and two numbers
never share their digits (`eq_of_shortest_value_eq`), whatever a reader does.

The search also ends soon. At a place where no point of the grid identifies
the magnitude, the grid is wider than half the gap below, and a magnitude has
at most `2 ^ 53` gaps. So the digits found one place further on are fewer than
twenty, and as a number they fit sixty-four bits with room to spare
(`shortest_digits_le`).

## Main definitions

* `Decimal.places`: A decimal, counted in the last place there is.

## Theorems

* `identifiedBy_iff`: A real identifies a magnitude if it rounds to it.
* `rounds_shortest`: The shortest decimal of a magnitude rounds to it.
* `eq_of_shortest_value_eq`: Magnitudes with equal decimals are equal.
* `shortest_digits_pos`: Only zero has no digit but zero.
* `shortest_digits_le`: The digits fit sixty-four bits.
-/

namespace PackageIndex

/-- A decimal, counted in the last place there is. -/
def Decimal.places (x : Decimal) : Nat := x.digits * 10 ^ x.place

namespace Magnitude

theorem placesOfUnit_pos : 0 < placesOfUnit := by
  unfold placesOfUnit
  generalize unitExponent = e
  exact Nat.pow_pos (by omega)

/-- A real identifies a magnitude if it rounds to it. -/
theorem identifiedBy_iff (m : Magnitude) (x : Nat) :
    m.identifiedBy x = true ↔ Rounds m.rank x placesOfUnit := by
  unfold identifiedBy
  simp only
  by_cases heven : m.rank % 2 = 0
  · rw [if_pos heven, Bool.and_eq_true, decide_eq_true_eq, decide_eq_true_eq]
    constructor
    · rintro ⟨hlow, hup⟩
      exact ⟨hlow, hup, fun h => by omega, fun h => by omega⟩
    · intro h
      exact ⟨h.lower, h.upper⟩
  · rw [if_neg heven, Bool.and_eq_true, decide_eq_true_eq, decide_eq_true_eq]
    constructor
    · rintro ⟨hlow, hup⟩
      exact ⟨by omega, by omega, fun _ => hlow, fun _ => hup⟩
    · intro h
      exact ⟨h.lower_odd (by omega), h.upper_odd (by omega)⟩

/-- A magnitude's own places identify it. -/
theorem identifiedBy_places (m : Magnitude) : m.identifiedBy m.places = true := by
  rw [identifiedBy_iff]
  refine m.rounds_units.of_cross Nat.one_pos placesOfUnit_pos ?_
  rw [places, Nat.mul_one]

theorem choose_eq (tie : Tie) (d : Nat) : tie.choose d = d ∨ tie.choose d = d + 1 := by
  cases tie with
  | even =>
      rcases Nat.mod_two_eq_zero_or_one d with h | h
      · exact Or.inl (by simp only [Tie.choose, h, Nat.add_zero])
      · exact Or.inr (by simp only [Tie.choose, h])
  | away => exact Or.inr rfl

/-- What the search does at a place. It goes on if the point of the grid below
    the magnitude does not identify it, or it ends there with that point or the
    next one, whichever it is identifying the magnitude. -/
theorem search_succ (tie : Tie) (m : Magnitude) (place : Nat) {grid : Nat}
    (hgrid : Nat.pow 10 (place + 1) = grid) :
    (m.identifiedBy (m.places / grid * grid) = false ∧
        search tie m (place + 1) = search tie m place) ∨
      ∃ n, (n = m.places / grid ∨ n = m.places / grid + 1) ∧
        m.identifiedBy (n * grid) = true ∧
        search tie m (place + 1) = ⟨n, place + 1⟩ := by
  rw [search, hgrid]
  rcases Bool.eq_false_or_eq_true (m.identifiedBy (m.places / grid * grid)) with hdown | hdown <;>
    rcases Bool.eq_false_or_eq_true (m.identifiedBy ((m.places / grid + 1) * grid)) with
      hup | hup <;>
    rw [hdown, hup]
  · -- Both pass, so whichever is chosen does.
    right
    rcases Nat.lt_trichotomy (2 * (m.places % grid)) grid with hlt | heq | hgt
    · rw [Nat.compare_eq_lt.mpr hlt]
      exact ⟨_, Or.inl rfl, hdown, rfl⟩
    · rw [Nat.compare_eq_eq.mpr heq]
      simp only
      rcases choose_eq tie (m.places / grid) with h | h <;> rw [h]
      · exact ⟨_, Or.inl rfl, hdown, rfl⟩
      · exact ⟨_, Or.inr rfl, hup, rfl⟩
    · rw [Nat.compare_eq_gt.mpr hgt]
      exact ⟨_, Or.inr rfl, hup, rfl⟩
  · exact Or.inr ⟨_, Or.inl rfl, hdown, rfl⟩
  · exact Or.inr ⟨_, Or.inr rfl, hup, rfl⟩
  · exact Or.inl ⟨rfl, rfl⟩

/-- What the search ends with identifies the magnitude. -/
theorem identifiedBy_search (tie : Tie) (m : Magnitude) (place : Nat) :
    m.identifiedBy (search tie m place).places = true := by
  induction place with
  | zero =>
      rw [search, Decimal.places, Nat.pow_zero, Nat.mul_one]
      exact m.identifiedBy_places
  | succ place ih =>
      have hgrid : Nat.pow 10 (place + 1) = 10 ^ (place + 1) := Nat.pow_eq
      rcases search_succ tie m place hgrid with ⟨-, hsearch⟩ | ⟨n, -, hn, hsearch⟩
      · rw [hsearch]
        exact ih
      · rw [hsearch, Decimal.places]
        exact hn

theorem shortest_of_rank_zero {m : Magnitude} (h : m.rank = 0) (tie : Tie) :
    m.shortest tie = ⟨0, unitExponent⟩ := by
  unfold shortest
  rw [if_pos h]

/-- The shortest decimal of a magnitude rounds to it. -/
theorem rounds_shortest (tie : Tie) (m : Magnitude) :
    Rounds m.rank (m.shortest tie).places placesOfUnit := by
  rw [← identifiedBy_iff]
  by_cases hzero : m.rank = 0
  · have hplaces : m.places = 0 := by
      rw [places, units, hzero, unitsOfRank_zero, Nat.zero_mul]
    have h := m.identifiedBy_places
    rw [hplaces] at h
    rw [shortest_of_rank_zero hzero, Decimal.places, Nat.zero_mul]
    exact h
  · unfold shortest
    rw [if_neg hzero]
    exact identifiedBy_search tie m _

/-- Magnitudes with equal decimals are equal. -/
theorem eq_of_shortest_value_eq {tie : Tie} {m n : Magnitude}
    (h : (m.shortest tie).places = (n.shortest tie).places) : m = n := by
  have hm := rounds_shortest tie m
  rw [h] at hm
  have hrank := rounds_unique placesOfUnit_pos hm (rounds_shortest tie n)
  cases m
  cases n
  congr

/-- Nothing but zero rounds from zero. -/
theorem not_rounds_zero {r d : Nat} (hr : r ≠ 0) (hd : 0 < d) : ¬Rounds r 0 d := by
  intro h
  have hpos := unitsOfRank_strictMono (Nat.pos_of_ne_zero hr)
  have hlow := h.lower
  rw [Nat.mul_zero, Nat.le_zero, Nat.mul_eq_zero] at hlow
  omega

/-- Only zero has no digit but zero. -/
theorem shortest_digits_pos (tie : Tie) {m : Magnitude} (hm : m.rank ≠ 0) :
    0 < (m.shortest tie).digits := by
  rcases Nat.eq_zero_or_pos (m.shortest tie).digits with hzero | hpos
  · have h := rounds_shortest tie m
    rw [Decimal.places, hzero, Nat.zero_mul] at h
    exact (not_rounds_zero hm placesOfUnit_pos h).elim
  · exact hpos

/-- Where the point of the grid below a magnitude does not identify it, the
    magnitude is at most `2 ^ 54` steps of the grid. -/
theorem places_le_of_not_identifiedBy {m : Magnitude} {grid : Nat} (hgrid : 0 < grid)
    (hm : m.rank ≠ 0) (h : m.identifiedBy (m.places / grid * grid) = false) :
    m.places ≤ 2 ^ 54 * grid := by
  have hmod := Nat.div_add_mod m.places grid
  have hlt := Nat.mod_lt m.places hgrid
  rw [Nat.mul_comm grid] at hmod
  obtain ⟨r, hr⟩ : ∃ r, m.rank = r + 1 := ⟨m.rank - 1, by omega⟩
  have hgap := Nat.mul_le_mul_right placesOfUnit (unitsOfRank_le_gap r)
  have hup := Nat.mul_lt_mul_of_pos_right (unitsOfRank_lt_succ (r + 1)) placesOfUnit_pos
  have hplaces : m.places = unitsOfRank (r + 1) * placesOfUnit := by rw [places, units, hr]
  -- The point is below the magnitude, so it can only be too low.
  have hlow : 2 * (m.places / grid * grid) ≤
      (unitsOfRank r + unitsOfRank (r + 1)) * placesOfUnit := by
    by_contra hc
    have hyes : m.identifiedBy (m.places / grid * grid) = true := by
      rw [identifiedBy_iff, hr]
      have hhigh : 2 * (m.places / grid * grid) <
          (unitsOfRank (r + 1) + unitsOfRank (r + 1 + 1)) * placesOfUnit := by
        rw [Nat.add_mul]
        omega
      refine ⟨?_, Nat.le_of_lt hhigh, fun _ => ?_, fun _ => hhigh⟩ <;>
        rw [Nat.add_sub_cancel] <;> omega
    rw [hyes] at h
    exact absurd h (by simp)
  rw [Nat.mul_assoc, Nat.sub_mul] at hgap
  rw [Nat.add_mul] at hlow
  omega

/-- The digits found from a place on, if the magnitude is not too many steps
    of the place before. -/
theorem search_digits_le (tie : Tie) {m : Magnitude} (hm : m.rank ≠ 0) (place : Nat)
    (h : m.places ≤ 2 ^ 54 * 10 ^ (place + 1)) :
    (search tie m place).digits ≤ 10 * 2 ^ 54 + 1 := by
  induction place with
  | zero =>
      rw [search]
      simp only
      omega
  | succ place ih =>
      have hgrid : Nat.pow 10 (place + 1) = 10 ^ (place + 1) := Nat.pow_eq
      have hpos : 0 < 10 ^ (place + 1) := Nat.pow_pos (by omega)
      rcases search_succ tie m place hgrid with ⟨hdown, hsearch⟩ | ⟨n, hn, -, hsearch⟩
      · -- That the search goes on is what bounds it at the next place.
        rw [hsearch]
        exact ih (places_le_of_not_identifiedBy hpos hm hdown)
      · have hd : m.places / 10 ^ (place + 1) ≤ 10 * 2 ^ 54 := by
          refine Nat.div_le_of_le_mul (Nat.le_trans h (Nat.le_of_eq ?_))
          rw [Nat.pow_succ 10 (place + 1)]
          ring
        rw [hsearch]
        simp only
        omega

/-- The search starts beyond the first digit. -/
theorem lt_pow_start (n : Nat) : n < 10 ^ (n.log2 * 28 / 93 + 2) := by
  have hlog := Nat.lt_log2_self (n := n)
  -- Compared in the twenty-eighth power, the two bases differ by little.
  have hfloor : n.log2 * 28 < 93 * (n.log2 * 28 / 93 + 1) := by omega
  generalize n.log2 * 28 / 93 = f at *
  have hpow : 2 ^ n.log2 < 10 ^ (f + 1) := by
    rw [← Nat.pow_lt_pow_iff_left (n := 28) (by omega)]
    calc (2 ^ n.log2) ^ 28 = 2 ^ (n.log2 * 28) := (Nat.pow_mul _ _ _).symm
      _ < 2 ^ (93 * (f + 1)) := Nat.pow_lt_pow_right (by omega) hfloor
      _ = (2 ^ 93) ^ (f + 1) := Nat.pow_mul _ _ _
      _ ≤ (10 ^ 28) ^ (f + 1) := Nat.pow_le_pow_left (by norm_num) _
      _ = (10 ^ (f + 1)) ^ 28 := by rw [← Nat.pow_mul, ← Nat.pow_mul, Nat.mul_comm]
  rw [Nat.pow_succ] at hlog
  rw [Nat.pow_succ 10 (f + 1)]
  omega

/-- The digits of a shortest decimal fit sixty-four bits. -/
theorem shortest_digits_le (tie : Tie) (m : Magnitude) :
    (m.shortest tie).digits ≤ 10 * 2 ^ 54 + 1 := by
  by_cases hzero : m.rank = 0
  · rw [shortest_of_rank_zero hzero]
    exact Nat.zero_le _
  · unfold shortest
    rw [if_neg hzero]
    refine search_digits_le tie hzero _ ?_
    have hstart := lt_pow_start m.places
    rw [Nat.pow_succ 10 (m.places.log2 * 28 / 93 + 2)]
    omega

end Magnitude

end PackageIndex
