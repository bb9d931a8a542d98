import PackageIndex.Proofs.Json.Reading
import PackageIndex.Proofs.Json.Scaled
import PackageIndex.Proofs.Number.Shortest
import PackageIndex.Revision.Persisted

/-!
# Times That Are Written and Read Again

A finite time is written with the fewest digits that identify it, and those
digits are read the quick way, with a rounding for the whole number, one for
the power of ten, and one for their product or quotient. A reader that rounded
once would give the time back. This one gives `Magnitude.reread`, which is
spelled out here without any text: from the digits and the place of the
shortest decimal, by the same arithmetic.

What can be said in general is that something finite is read
(`reread_isSome`). The one danger is a product near the greatest magnitude.
The errors of the factors cannot carry it past the last halfway point unless
the time is among the greatest three there are, and for those it is checked.

Where the decimal ends in the whole numbers and its digits are written out in
place, the text has a zero behind the point, and the reader takes that zero
for a digit like the others. Ten times the number is then divided by ten.

## Main definitions

* `Magnitude.reread`: What a magnitude's text is read as.
* `Revision.spellingOf`: The parts a stored number's text consists of.

## Theorems

* `write_eq_text`: A stored number's text is that of its parts.
* `magnitude?_spellingOf`: Those parts have the value `reread` computes.
* `reread_isSome`: Every finite time is read back as a finite time.
* `writeTime_append_inj`: Finite times with equal texts are equal.
* `numeric_writeTime`: A stored time is read as `reread` says, whatever follows.
-/

namespace PackageIndex

namespace Magnitude

theorem unitsOfOne_mul_placesOfUnit : unitsOfOne * placesOfUnit = 10 ^ unitExponent := by
  unfold unitsOfOne placesOfUnit
  generalize unitExponent = e
  rw [Nat.pow_eq, Nat.pow_eq, ← Nat.mul_pow]

/-- Twice the value of a shortest decimal does not exceed the last halfway
    point. -/
theorem shortest_places_le (tie : Tie) (m : Magnitude) :
    2 * (m.shortest tie).places ≤ overflowWhole * 10 ^ unitExponent := by
  have h1 := unitsOfRank_strictMono.monotone
    (show m.rank ≤ 2047 * runLength - 1 by have := m.rank_lt; omega)
  have h2 := unitsOfRank_strictMono.monotone
    (show m.rank + 1 ≤ 2047 * runLength by have := m.rank_lt; omega)
  refine Nat.le_trans (m.rounds_shortest tie).upper ?_
  rw [← unitsOfOne_mul_placesOfUnit, ← Nat.mul_assoc, ← overflowUnits_eq]
  exact Nat.mul_le_mul_right _ (Nat.add_le_add h1 h2)

/-- A shortest decimal needs no power of ten beyond the table. -/
theorem shortest_place_le (tie : Tie) (m : Magnitude) :
    (m.shortest tie).place ≤ unitExponent + Json.tablePower := by
  by_cases hzero : m.rank = 0
  · rw [shortest_of_rank_zero hzero]
    exact Nat.le_add_right _ _
  · by_contra hc
    have hbound := m.shortest_places_le tie
    have hpos := shortest_digits_pos tie hzero
    obtain ⟨extra, hextra⟩ := Nat.exists_eq_add_of_lt (Nat.lt_of_not_le hc)
    -- One digit at the place beyond the table is more than all that is finite.
    have htable : overflowWhole < 2 * 10 ^ (Json.tablePower + 1) := by decide +kernel
    unfold Decimal.places at hbound
    have hle : 10 ^ (Json.tablePower + 1) * 10 ^ unitExponent ≤
        (m.shortest tie).digits * 10 ^ (m.shortest tie).place := by
      rw [← Nat.pow_add]
      refine Nat.le_trans (Nat.pow_le_pow_right (by omega) ?_) (Nat.le_mul_of_pos_left _ hpos)
      omega
    have hten : 0 < 10 ^ unitExponent := Nat.pow_pos (by omega)
    have hlt := Nat.mul_lt_mul_of_pos_right htable hten
    rw [Nat.mul_assoc] at hlt
    omega

end Magnitude

/-- What a magnitude's text is read as. Whole numbers that are written out in
    place carry one zero more. -/
def Magnitude.reread (m : Magnitude) : Option Magnitude :=
  let decimal := m.shortest .even
  let place : Int := decimal.place - unitExponent
  if 0 ≤ place ∧ (Numeral.write decimal.digits).length + place ≤ 16 then
    Json.scaled (decimal.digits * 10 ^ (place.toNat + 1)) (-1)
  else Json.scaled decimal.digits place

namespace Revision

/-- The parts of a stored number with these digits, the first of them standing
    for this power of ten. -/
def spell (negative : Bool) (digits : Text) (exponent : Int) : Json.Spelling :=
  let before := exponent.toNat + 1
  if stored.inPlace exponent then
    if exponent < 0 then
      ⟨negative, ['0'], List.replicate (-exponent - 1).toNat '0' ++ digits, false, []⟩
    else if digits.length ≤ before then
      ⟨negative, digits ++ List.replicate (before - digits.length) '0', ['0'], false, []⟩
    else ⟨negative, digits.take before, digits.drop before, false, []⟩
  else ⟨negative, digits.take 1, digits.drop 1, exponent < 0, Numeral.write exponent.natAbs⟩

theorem spell_text (negative : Bool) {digits : Text} (hne : digits ≠ []) (exponent : Int) :
    (spell negative digits exponent).text = (if negative then ['-'] else []) ++
      if stored.inPlace exponent then Layout.positional stored.whole digits exponent
      else Layout.scientific digits exponent := by
  unfold spell
  by_cases hplace : stored.inPlace exponent = true
  · rw [if_pos hplace, if_pos hplace]
    unfold Layout.positional
    by_cases hneg : exponent < 0
    · rw [if_pos hneg, if_pos hneg]
      simp [Json.Spelling.text, Json.fractionText, Json.powerText, hne]
    · rw [if_neg hneg, if_neg hneg]
      simp only
      by_cases hlen : digits.length ≤ exponent.toNat + 1
      · rw [if_pos hlen, if_pos hlen]
        simp [Json.Spelling.text, Json.fractionText, Json.powerText, stored]
      · rw [if_neg hlen, if_neg hlen]
        simp [Json.Spelling.text, Json.fractionText, Json.powerText, hlen]
  · rw [if_neg hplace, if_neg hplace]
    unfold Layout.scientific
    have hpower : Numeral.write exponent.natAbs ≠ [] := Numeral.write_ne_nil _
    by_cases hneg : exponent < 0
    · simp [Json.Spelling.text, Json.fractionText, Json.powerText, hneg, hpower]
    · simp [Json.Spelling.text, Json.fractionText, Json.powerText, hneg, hpower]

/-- The parts are read back, unless the digits begin with a zero. A zero alone
    is the one number that may. -/
theorem proper_spell (negative : Bool) {digits : Text} {exponent : Int} (hne : digits ≠ [])
    (hdigits : ∀ c ∈ digits, c.isDigit = true)
    (hhead : digits.head? = some '0' → digits.length = 1 ∧ exponent = 0) :
    (spell negative digits exponent).Proper := by
  have hzeros : ∀ n, ∀ c ∈ List.replicate n '0', c.isDigit = true := by
    intro n c hc
    rw [List.eq_of_mem_replicate hc]
    rfl
  have happend : ∀ {a b : Text}, (∀ c ∈ a, c.isDigit = true) → (∀ c ∈ b, c.isDigit = true) →
      ∀ c ∈ a ++ b, c.isDigit = true := fun ha hb c hc =>
    (List.mem_append.mp hc).elim (ha c) (hb c)
  unfold spell
  by_cases hplace : stored.inPlace exponent = true
  · rw [if_pos hplace]
    by_cases hneg : exponent < 0
    · rw [if_pos hneg]
      exact ⟨List.cons_ne_nil _ _, hzeros 1, fun _ => Nat.le_refl 1, happend (hzeros _) hdigits,
        fun c hc => absurd hc List.not_mem_nil, fun _ => rfl⟩
    · rw [if_neg hneg]
      by_cases hlen : digits.length ≤ exponent.toNat + 1
      · -- A zero in front is a zero alone, and then no zeros are put behind it.
        rw [if_pos hlen]
        refine ⟨by simp [hne], happend hdigits (hzeros _), fun h => ?_, hzeros 1,
          fun c hc => absurd hc List.not_mem_nil, fun _ => rfl⟩
        obtain ⟨d, others, hd⟩ := List.exists_cons_of_ne_nil hne
        simp only [hd, List.cons_append, List.head?_cons] at h hhead
        obtain ⟨hone, hzero⟩ := hhead h
        simp only [hd, List.cons_append, List.length_cons, List.length_append,
          List.length_replicate] at hone ⊢
        omega
      · rw [if_neg hlen]
        refine ⟨?_, fun c hc => hdigits c (List.mem_of_mem_take hc), fun h => ?_,
          fun c hc => hdigits c (List.mem_of_mem_drop hc),
          fun c hc => absurd hc List.not_mem_nil, fun _ => rfl⟩
        · rw [ne_eq, List.take_eq_nil_iff]
          simp [hne]
        · rw [List.head?_take, if_neg (by omega)] at h
          have := hhead h
          omega
  · rw [if_neg hplace]
    refine ⟨?_, fun c hc => hdigits c (List.mem_of_mem_take hc), fun _ => ?_,
      fun c hc => hdigits c (List.mem_of_mem_drop hc), fun c hc => Numeral.isDigit_of_mem_write hc,
      fun h => absurd h (Numeral.write_ne_nil _)⟩
    · rw [ne_eq, List.take_eq_nil_iff]
      simp [hne]
    · rw [List.length_take]
      omega

/-- Exponents for which digits are written out in place. -/
theorem inPlace_iff (exponent : Int) :
    stored.inPlace exponent = true ↔ -5 ≤ exponent ∧ exponent ≤ 15 := by
  simp only [stored, Bool.and_eq_true, decide_eq_true_eq]

/-- The digits of a stored number and the power of ten of the last one. In a
    whole number written out in place the last one is the zero behind the
    point. -/
theorem spell_value (negative : Bool) {digits : Text} (hne : digits ≠ []) (exponent place : Int)
    (hplace : place = exponent + 1 - digits.length) :
    if 0 ≤ place ∧ digits.length + place ≤ 16 then
      (spell negative digits exponent).coefficient =
          Nat.ofDigitChars 10 digits 0 * 10 ^ (place.toNat + 1) ∧
        (spell negative digits exponent).exponent = -1
    else (spell negative digits exponent).coefficient = Nat.ofDigitChars 10 digits 0 ∧
      (spell negative digits exponent).exponent = place := by
  have hlength : 0 < digits.length := List.length_pos_iff.mpr hne
  unfold spell Json.Spelling.coefficient Json.Spelling.exponent
  by_cases hin : stored.inPlace exponent = true
  · rw [if_pos hin]
    rw [inPlace_iff] at hin
    by_cases hneg : exponent < 0
    · -- Zeros in front of the digits do not count.
      rw [if_neg (by omega), if_pos hneg]
      simp only [List.length_append, List.length_replicate, Nat.ofDigitChars_append,
        Nat.ofDigitChars_replicate_zero, Nat.ofDigitChars_nil, if_false, Bool.false_eq_true]
      refine ⟨rfl, ?_⟩
      omega
    · rw [if_neg hneg]
      by_cases hlen : digits.length ≤ exponent.toNat + 1
      · -- Zeros behind the digits do.
        have hzeros : exponent.toNat + 1 - digits.length = place.toNat := by omega
        rw [if_pos (by omega), if_pos hlen, hzeros]
        simp only [List.append_assoc, Nat.ofDigitChars_append, Nat.ofDigitChars_replicate_zero,
          Nat.ofDigitChars_nil, if_false, Bool.false_eq_true, List.length_singleton]
        refine ⟨?_, rfl⟩
        rw [show ['0'] = List.replicate 1 '0' from rfl, Nat.ofDigitChars_replicate_zero]
        ring
      · rw [if_neg (by omega), if_neg hlen]
        simp only [List.take_append_drop, List.length_drop, Nat.ofDigitChars_nil, if_false,
          Bool.false_eq_true]
        refine ⟨trivial, ?_⟩
        omega
  · rw [if_neg hin]
    rw [inPlace_iff] at hin
    rw [if_neg (by omega)]
    simp only [List.take_append_drop, List.length_drop, Numeral.ofDigitChars_write,
      decide_eq_true_eq]
    refine ⟨trivial, ?_⟩
    split <;> omega

/-- The parts a magnitude's text consists of. -/
def spellingOf (negative : Bool) (m : Magnitude) : Json.Spelling :=
  let decimal := m.shortest .even
  let digits := Numeral.write decimal.digits
  spell negative digits (digits.length - 1 + decimal.place - unitExponent)

/-- A stored number's text is that of its parts. -/
theorem write_eq_text (negative : Bool) (m : Magnitude) :
    stored.write (.finite negative m) = (spellingOf negative m).text := by
  unfold spellingOf
  rw [spell_text negative (Numeral.write_ne_nil _)]
  cases negative <;> rfl

theorem proper_spellingOf (negative : Bool) (m : Magnitude) : (spellingOf negative m).Proper := by
  refine proper_spell negative (Numeral.write_ne_nil _) (fun c hc => Numeral.isDigit_of_mem_write hc)
    fun hhead => ?_
  -- Only zero has digits that begin with a zero.
  have hrank : m.rank = 0 := by
    by_contra hne
    exact Numeral.head?_write_ne_zero (Nat.ne_of_gt (m.shortest_digits_pos .even hne)) hhead
  rw [Magnitude.shortest_of_rank_zero hrank]
  exact ⟨rfl, rfl⟩

/-- The digits of a magnitude's text and the power of ten of the last one. -/
theorem spellingOf_value (negative : Bool) (m : Magnitude) :
    let decimal := m.shortest .even
    let place : Int := decimal.place - unitExponent
    if 0 ≤ place ∧ (Numeral.write decimal.digits).length + place ≤ 16 then
      (spellingOf negative m).coefficient = decimal.digits * 10 ^ (place.toNat + 1) ∧
        (spellingOf negative m).exponent = -1
    else (spellingOf negative m).coefficient = decimal.digits ∧
      (spellingOf negative m).exponent = place := by
  have hvalue := spell_value negative (Numeral.write_ne_nil (m.shortest .even).digits)
    ((Numeral.write (m.shortest .even).digits).length - 1 + (m.shortest .even).place - unitExponent)
    ((m.shortest .even).place - unitExponent) (by omega)
  rw [Numeral.ofDigitChars_write] at hvalue
  exact hvalue

/-- The digits of a magnitude's text fit sixty-four bits, whether or not there
    is a zero more. -/
theorem coefficient_le (negative : Bool) (m : Magnitude) :
    (spellingOf negative m).coefficient ≤ 10 * 2 ^ 54 + 1 := by
  have hvalue := spellingOf_value negative m
  simp only at hvalue
  split at hvalue
  · rename_i hcond
    obtain ⟨hplace, hlength⟩ := hcond
    -- Sixteen digits in front of the point and a zero behind it.
    have hpos : 0 < (Numeral.write (m.shortest .even).digits).length :=
      List.length_pos_iff.mpr (Numeral.write_ne_nil _)
    generalize ((m.shortest .even).place : Int) - unitExponent = place at *
    have hlt := (Numeral.length_write_le_iff hpos).mp (Nat.le_refl _)
    generalize (Numeral.write (m.shortest .even).digits).length = len at *
    have hexp : 10 ^ len * 10 ^ (place.toNat + 1) ≤ 10 ^ 17 := by
      rw [← Nat.pow_add]
      exact Nat.pow_le_pow_right (by omega) (by omega)
    have hmul := Nat.mul_le_mul_right (10 ^ (place.toNat + 1)) (Nat.le_of_lt hlt)
    rw [hvalue.1]
    omega
  · rw [hvalue.1]
    exact Magnitude.shortest_digits_le .even m

/-- The power of ten in a magnitude's text is none too great to look at. -/
theorem power_le (negative : Bool) (m : Magnitude) :
    Nat.ofDigitChars 10 (spellingOf negative m).power 0 ≤ Json.greatestPower := by
  have hlength : (Numeral.write (m.shortest .even).digits).length ≤ 18 := by
    rw [Numeral.length_write_le_iff (by omega)]
    exact Nat.lt_of_le_of_lt (Magnitude.shortest_digits_le .even m) (by decide)
  have hplace := m.shortest_place_le .even
  unfold spellingOf spell
  simp only
  generalize (Numeral.write (m.shortest .even).digits) = digits at *
  generalize (m.shortest .even).place = place at *
  split
  · split
    · exact Nat.zero_le _
    · split <;> exact Nat.zero_le _
  · simp only [Numeral.ofDigitChars_write]
    have hunit : unitExponent = 1074 := rfl
    have htable : Json.tablePower = 308 := rfl
    unfold Json.greatestPower
    omega

theorem spellingOf_negative (negative : Bool) (m : Magnitude) :
    (spellingOf negative m).negative = negative := by
  unfold spellingOf spell
  simp only
  split
  · split
    · rfl
    · split <;> rfl
  · rfl

/-- The parts of a magnitude's text, counted in the last place there is. -/
theorem places_spellingOf (negative : Bool) (m : Magnitude) :
    (spellingOf negative m).coefficient *
        10 ^ ((spellingOf negative m).exponent + unitExponent).toNat =
      (m.shortest .even).places := by
  have hvalue := spellingOf_value negative m
  have hunit : unitExponent = 1073 + 1 := rfl
  simp only at hvalue
  unfold Decimal.places
  generalize m.shortest .even = decimal at *
  split at hvalue
  · -- The zero behind the point makes up for the place behind the point.
    rename_i hcond
    have hplace : decimal.place = ((decimal.place : Int) - unitExponent).toNat + 1 + 1073 := by
      omega
    have hlast : ((-1 : Int) + unitExponent).toNat = 1073 := by rw [hunit]; rfl
    rw [hvalue.1, hvalue.2, hlast, Nat.mul_assoc, ← Nat.pow_add, ← hplace]
  · rw [hvalue.1, hvalue.2, Int.sub_add_cancel, Int.toNat_natCast]

/-- Times are equal if they are written equally, whatever follows. -/
theorem writeTime_append_inj {a b : Bool} {m n : Magnitude} {r s : Text}
    (hr : Json.EndsNumber r) (hs : Json.EndsNumber s)
    (h : writeTime (.finite a m) ++ r = writeTime (.finite b n) ++ s) :
    Binary64.finite a m = .finite b n ∧ r = s := by
  change stored.write (.finite a m) ++ r = stored.write (.finite b n) ++ s at h
  rw [write_eq_text, write_eq_text] at h
  -- The same parts are read from both texts.
  have hread := Json.spelling_text (proper_spellingOf a m) hr
  rw [h, Json.spelling_text (proper_spellingOf b n) hs, Except.ok.injEq, Prod.mk.injEq] at hread
  obtain ⟨hparts, hrest⟩ := hread
  have hsign : a = b := by
    rw [← spellingOf_negative a m, ← hparts, spellingOf_negative]
  have hplaces : (m.shortest .even).places = (n.shortest .even).places := by
    rw [← places_spellingOf a m, ← places_spellingOf b n, hparts]
  rw [hsign, Magnitude.eq_of_shortest_value_eq hplaces]
  exact ⟨rfl, hrest.symm⟩

/-- What is read is the value of the parts. -/
theorem reread_eq (negative : Bool) (m : Magnitude) :
    m.reread =
      Json.scaled (spellingOf negative m).coefficient (spellingOf negative m).exponent := by
  have hvalue := spellingOf_value negative m
  simp only at hvalue
  unfold Magnitude.reread
  simp only
  split at hvalue
  · rename_i hcond
    rw [if_pos hcond, hvalue.1, hvalue.2]
  · rename_i hcond
    rw [if_neg hcond, hvalue.1, hvalue.2]

/-- The parts of a magnitude's text have the value that `reread` computes. -/
theorem magnitude?_spellingOf (negative : Bool) (m : Magnitude) :
    (spellingOf negative m).magnitude? = m.reread := by
  have hfit : (spellingOf negative m).coefficient < UInt64.size :=
    Nat.lt_of_le_of_lt (coefficient_le negative m) (by decide)
  rw [Json.Spelling.magnitude?_eq hfit (power_le negative m), reread_eq negative m]

/-- A stored time is read as `reread` says, whatever follows. -/
theorem numeric_writeTime (negative : Bool) {m q : Magnitude} (hq : m.reread = some q)
    {rest : Text} (hrest : Json.EndsNumber rest) :
    Json.numeric (writeTime (.finite negative m) ++ rest) = .ok (.finite negative q, rest) := by
  have hvalue : (spellingOf negative m).value? = some (.finite negative q) := by
    rw [Json.Spelling.value?, magnitude?_spellingOf, hq, Option.map_some, spellingOf_negative]
  change Json.numeric (stored.write (.finite negative m) ++ rest) = _
  rw [write_eq_text]
  exact Json.numeric_text (proper_spellingOf negative m) hvalue hrest

end Revision

namespace Magnitude

/-- Below the three greatest magnitudes, a decimal stays clear of the last
    halfway point by more than the factors can be off. -/
theorem shortest_clear {tie : Tie} {m : Magnitude} (hm : m.rank + 4 ≤ 2047 * runLength) {k : Nat}
    (hk : (m.shortest tie).place = unitExponent + k) :
    2 * ((m.shortest tie).digits * 10 ^ k) * (2 ^ 53 + 1) ^ 2 < overflowWhole * 2 ^ 106 := by
  have hrun : 4 ≤ runLength := by
    rw [runLength_eq]
    omega
  -- The decimal is at most halfway to the rank above.
  have h1 := unitsOfRank_strictMono.monotone (show m.rank ≤ 2047 * runLength - 4 by omega)
  have h2 := unitsOfRank_strictMono.monotone (show m.rank + 1 ≤ 2047 * runLength - 3 by omega)
  rw [unitsOfRank_last hrun] at h1
  rw [unitsOfRank_last (by omega)] at h2
  have hupper := (m.rounds_shortest tie).upper
  have hten : 0 < 10 ^ unitExponent := Nat.pow_pos (by omega)
  have hdecimal : 2 * ((m.shortest tie).digits * 10 ^ k) ≤ (2 ^ 54 - 7) * 2 ^ 971 := by
    refine Nat.le_of_mul_le_mul_right ?_ hten
    calc 2 * ((m.shortest tie).digits * 10 ^ k) * 10 ^ unitExponent
        = 2 * (m.shortest tie).places := by
          rw [Decimal.places, hk, Nat.pow_add]
          ring
      _ ≤ (unitsOfRank m.rank + unitsOfRank (m.rank + 1)) * placesOfUnit := hupper
      _ ≤ ((2 ^ 53 - 4) * 2 ^ 971 * unitsOfOne + (2 ^ 53 - 3) * 2 ^ 971 * unitsOfOne) *
            placesOfUnit := Nat.mul_le_mul_right _ (Nat.add_le_add h1 h2)
      _ = (2 ^ 54 - 7) * 2 ^ 971 * (unitsOfOne * placesOfUnit) := by
          rw [← Nat.add_mul, ← Nat.add_mul, Nat.mul_assoc,
            show 2 ^ 53 - 4 + (2 ^ 53 - 3) = 2 ^ 54 - 7 by norm_num]
      _ = (2 ^ 54 - 7) * 2 ^ 971 * 10 ^ unitExponent := by rw [unitsOfOne_mul_placesOfUnit]
  refine Nat.lt_of_le_of_lt (Nat.mul_le_mul_right _ hdecimal) ?_
  decide +kernel

/-- The three greatest magnitudes are read as something finite. -/
theorem reread_isSome_last :
    ∀ j < 3, ∀ h, (reread ⟨2047 * runLength - (j + 1), h⟩).isSome = true := by
  decide +kernel

/-- Every finite time is read back as a finite time. -/
theorem reread_isSome (m : Magnitude) : m.reread.isSome = true := by
  by_cases hlast : m.rank + 4 ≤ 2047 * runLength
  · have hcoefficient := Revision.coefficient_le false m
    have hvalue := Revision.spellingOf_value false m
    simp only at hvalue
    rw [Revision.reread_eq false m]
    -- Division is harmless, and multiplication stays clear of the halfway point.
    by_cases hneg : (Revision.spellingOf false m).exponent < 0
    · refine Json.scaled_isSome_of_neg (Nat.lt_of_le_of_lt
        (Nat.mul_le_mul_left 2 hcoefficient) ?_) hneg
      decide +kernel
    · split at hvalue
      · omega
      · rename_i hcond
        obtain ⟨k, hk⟩ : ∃ k, (m.shortest .even).place = unitExponent + k :=
          ⟨(m.shortest .even).place - unitExponent, by omega⟩
        have hplace := m.shortest_place_le .even
        have hrank : m.rank ≠ 0 := by
          intro hzero
          rw [shortest_of_rank_zero hzero] at hcond
          exact hcond (by decide)
        have hexponent : (Revision.spellingOf false m).exponent = (k : Int) := by omega
        rw [hvalue.1, hexponent]
        exact Json.scaled_isSome_of_le (shortest_digits_pos .even hrank) (by omega)
          (shortest_clear hlast hk)
  · obtain ⟨rank, hrank⟩ := m
    simp only at hlast
    obtain ⟨j, hj, rfl⟩ : ∃ j < 3, rank = 2047 * runLength - (j + 1) :=
      ⟨2047 * runLength - 1 - rank, by omega, by omega⟩
    exact reread_isSome_last j hj hrank

end Magnitude

end PackageIndex
