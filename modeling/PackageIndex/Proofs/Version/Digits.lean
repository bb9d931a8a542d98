import PackageIndex.Proofs.Text.Numeral
import PackageIndex.Proofs.Version.Padding
import PackageIndex.Proofs.Version.Preorder

/-!
# Versions of Digits

A component of digits is a number, and numbers compare by value. There is an end
to that at sixty-four bits, where digits stay the text they are. Above the end
they are compared from the left, as texts are, and this is not their value
unless there are equally many.

Where the two kinds meet nothing goes wrong: text is above every number, and its
value is above every value of a number. So the only components that may be
misjudged are two that are both beyond the end (`compare_digits`). A version is
misjudged if these are the first components to differ, and if what their
spellings say is not what the values say from there on (`Misordered`). That
includes two spellings of one value, which are not equal beyond the end: a
zero in front of such digits makes another component.

## Main definitions

* `IsDigits`: A text of digits.
* `Version.Numeric`: A version of digits and dots.
* `Version.digits`, `Version.value`, `Version.values`: Its components as written,
  and their values.
* `Version.compareValues`: How versions compare by their values.
* `Version.Misordered`: Versions whose spellings are compared in place of values.

## Theorems

* `Component.compare_digits`: How components of digits compare.
* `Component.ofText_eq_iff`: When digits are the same component.
* `compare_of_differ`: The first components that differ decide.
* `compare_eq_compareValues_iff`: Versions compare by value unless misordered.
* `not_misordered_of_length`: Equally many digits are judged by value.
* `compare_values_iff`: The laws together, and when versions are equal.
-/

namespace PackageIndex

/-- Digits, at least one, and nothing else. -/
def IsDigits (s : Text) : Prop := s ≠ [] ∧ ∀ c ∈ s, c.isDigit = true

instance (s : Text) : Decidable (IsDigits s) :=
  decidable_of_iff (s.isEmpty = false ∧ s.all Char.isDigit = true) (by simp [IsDigits])

namespace Component

variable {s t : Text}

/-- Digits are a number if that fits, and text otherwise. -/
theorem ofText_digits (hs : IsDigits s) :
    ofText s = if h : Nat.ofDigitChars 10 s 0 < UInt64.size then
      .number (UInt64.ofNatLT (Nat.ofDigitChars 10 s 0) h) else .text s := by
  have hread : Numeral.read? s = some (Nat.ofDigitChars 10 s 0) := by
    rw [Numeral.read?, if_pos]
    simpa [hs.1] using hs.2
  rw [ofText, hread]

theorem compare_text (hs : s ≠ []) (ht : t ≠ []) : compare (text s) (text t) = compare s t := by
  obtain ⟨c, s, rfl⟩ := List.exists_cons_of_ne_nil hs
  obtain ⟨d, t, rfl⟩ := List.exists_cons_of_ne_nil ht
  rfl

/-- Only the empty text is not above every number. -/
theorem compare_number_text (n : UInt64) (ht : t ≠ []) : compare (number n) (text t) = .lt := by
  obtain ⟨d, t, rfl⟩ := List.exists_cons_of_ne_nil ht
  rfl

/-- Components of digits compare by value, unless both are beyond sixty-four bits.
    Then they compare as texts. -/
theorem compare_digits (hs : IsDigits s) (ht : IsDigits t) :
    compare (ofText s) (ofText t) =
      if UInt64.size ≤ Nat.ofDigitChars 10 s 0 ∧ UInt64.size ≤ Nat.ofDigitChars 10 t 0 then
        compare s t
      else compare (Nat.ofDigitChars 10 s 0) (Nat.ofDigitChars 10 t 0) := by
  rw [ofText_digits hs, ofText_digits ht]
  generalize Nat.ofDigitChars 10 s 0 = m
  generalize Nat.ofDigitChars 10 t 0 = n
  by_cases hmfits : m < UInt64.size
  · rw [dif_pos hmfits, if_neg (by omega)]
    by_cases hnfits : n < UInt64.size
    · rw [dif_pos hnfits, compare_number]
      rfl
    · rw [dif_neg hnfits, compare_number_text _ ht.1, Nat.compare_eq_lt.mpr (by omega)]
  · rw [dif_neg hmfits]
    by_cases hnfits : n < UInt64.size
    · rw [dif_pos hnfits, if_neg (by omega), Nat.compare_eq_gt.mpr (by omega)]
      exact Std.OrientedCmp.gt_of_lt (compare_number_text _ hs.1)
    · rw [dif_neg hnfits, if_pos (by omega), compare_text hs.1 ht.1]

/-- Digits of the same value are the same component, but beyond sixty-four bits
    only if they are the same digits. -/
theorem ofText_eq_iff (hs : IsDigits s) (ht : IsDigits t) :
    ofText s = ofText t ↔ Nat.ofDigitChars 10 s 0 = Nat.ofDigitChars 10 t 0 ∧
      (UInt64.size ≤ Nat.ofDigitChars 10 s 0 → s = t) := by
  rw [← Std.LawfulEqOrd.compare_eq_iff_eq, compare_digits hs ht]
  split
  · rename_i hbeyond
    rw [Std.LawfulEqOrd.compare_eq_iff_eq]
    exact ⟨fun h => ⟨by rw [h], fun _ => h⟩, fun h => h.2 hbeyond.1⟩
  · rename_i hfits
    rw [Nat.compare_eq_eq]
    exact ⟨fun h => ⟨h, fun hbeyond => absurd ⟨hbeyond, h ▸ hbeyond⟩ hfits⟩, And.left⟩

end Component

namespace Version

/-- A version of digits and dots: it has only a main part, and all components are
    digits, at least one. -/
structure Numeric (v : Version) : Prop extends Bare v where
  digits : ∀ s ∈ Text.pieces '.' v.head, IsDigits s

/-- The component at an index as written, a missing one being zero. -/
def digits (v : Version) (index : Nat) : Text := (Text.pieces '.' v.head)[index]?.getD ['0']

/-- The value of the digits at an index. -/
def value (v : Version) (index : Nat) : Nat := Nat.ofDigitChars 10 (v.digits index) 0

/-- The values of the main components. -/
def values (v : Version) : List Nat :=
  (Text.pieces '.' v.head).map fun s => Nat.ofDigitChars 10 s 0

/-- How versions compare by the values of their components, with zeros for those
    that are missing. -/
def compareValues (v w : Version) : Ordering := comparePadded 0 v.values w.values

/-- The first components in which two versions differ are both beyond sixty-four
    bits, and their spellings do not compare as the values from there on do. -/
structure Misordered (v w : Version) (index : Nat) : Prop where
  differ : Differ v.main w.main index
  left : UInt64.size ≤ v.value index
  right : UInt64.size ≤ w.value index
  spelling : compare (v.digits index) (w.digits index) ≠
    (compare (v.value index) (w.value index)).then
      (comparePadded 0 (v.values.drop (index + 1)) (w.values.drop (index + 1)))

theorem values_getD (v : Version) (index : Nat) : v.values[index]?.getD 0 = v.value index := by
  rw [values, value, digits, List.getElem?_map]
  cases (Text.pieces '.' v.head)[index]? <;> rfl

theorem padded_main (v : Version) (index : Nat) :
    PackageIndex.padded v.main index = Component.ofText (v.digits index) := by
  rw [PackageIndex.padded, main, components, List.getElem?_map, digits]
  cases (Text.pieces '.' v.head)[index]? <;> rfl

variable {v w : Version} {index : Nat}

theorem Numeric.digits_at (hv : v.Numeric) (index : Nat) : IsDigits (v.digits index) := by
  rw [Version.digits]
  cases hpiece : (Text.pieces '.' v.head)[index]? with
  | none => decide
  | some s => exact hv.digits s (List.mem_of_getElem? hpiece)

theorem Numeric.not_empty (hv : v.Numeric) : ∀ c ∈ v.main, c ≠ .text [] := by
  intro c hc
  obtain ⟨s, hs, rfl⟩ := List.mem_map.mp hc
  rw [Component.ofText_digits (hv.digits s hs)]
  split
  · simp
  · simpa using (hv.digits s hs).1

/-- Versions of digits are the same at an index if they have the same value there
    and beyond sixty-four bits also the same digits. -/
theorem padded_eq_iff (hv : v.Numeric) (hw : w.Numeric) (index : Nat) :
    PackageIndex.padded v.main index = PackageIndex.padded w.main index ↔
      v.value index = w.value index ∧
        (UInt64.size ≤ v.value index → v.digits index = w.digits index) := by
  rw [padded_main, padded_main]
  exact Component.ofText_eq_iff (hv.digits_at index) (hw.digits_at index)

/-- Versions of digits compare component by component, with zeros for those that
    are missing. -/
theorem Numeric.compare_eq (hv : v.Numeric) (hw : w.Numeric) :
    compare v w = comparePadded .zero v.main w.main := by
  rw [hv.toBare.compare_eq hw.toBare, compare_significant_eq_iff]
  exact ⟨not_endsAtEmpty hw.not_empty, not_endsAtEmpty hv.not_empty⟩

/-- The first components that differ decide, by value unless both are beyond
    sixty-four bits. -/
theorem compare_of_differ (hv : v.Numeric) (hw : w.Numeric) (h : Differ v.main w.main index) :
    compare v w = if UInt64.size ≤ v.value index ∧ UInt64.size ≤ w.value index then
      compare (v.digits index) (w.digits index) else compare (v.value index) (w.value index) := by
  rw [hv.compare_eq hw, h.comparePadded_eq, padded_main, padded_main]
  exact Component.compare_digits (hv.digits_at index) (hw.digits_at index)

/-- In front of the first components that differ the values are the same. -/
theorem compareValues_of_differ (hv : v.Numeric) (hw : w.Numeric) (h : Differ v.main w.main index) :
    compareValues v w = (compare (v.value index) (w.value index)).then
      (comparePadded 0 (v.values.drop (index + 1)) (w.values.drop (index + 1))) := by
  rw [compareValues, comparePadded_of_before 0 (n := index), values_getD, values_getD]
  intro k hk
  rw [values_getD, values_getD]
  exact ((padded_eq_iff hv hw k).mp (h.before k hk)).1

/-- If one of the first components that differ fits sixty-four bits, their values
    differ and decide. -/
theorem compare_eq_of_fits (hv : v.Numeric) (hw : w.Numeric) (h : Differ v.main w.main index)
    (hfits : ¬(UInt64.size ≤ v.value index ∧ UInt64.size ≤ w.value index)) :
    compare v w = compareValues v w := by
  rw [compare_of_differ hv hw h, if_neg hfits, compareValues_of_differ hv hw h]
  cases hcompare : compare (v.value index) (w.value index) with
  | lt => rfl
  | gt => rfl
  | eq =>
      have hvalue := Nat.compare_eq_eq.mp hcompare
      refine absurd ((padded_eq_iff hv hw index).mpr ⟨hvalue, fun hbeyond => ?_⟩) h.here
      exact absurd ⟨hbeyond, hvalue ▸ hbeyond⟩ hfits

/-- Versions of digits compare by value unless they are misordered. -/
theorem compare_eq_compareValues_iff (hv : v.Numeric) (hw : w.Numeric) :
    compare v w = compareValues v w ↔ ¬∃ index, Misordered v w index := by
  constructor
  · rintro h ⟨index, hdiffer, hleft, hright, hspelling⟩
    rw [compare_of_differ hv hw hdiffer, if_pos ⟨hleft, hright⟩,
      compareValues_of_differ hv hw hdiffer] at h
    exact hspelling h
  · intro h
    rcases same_or_differ v.main w.main with hsame | ⟨index, hdiffer⟩
    · have hvalues : ∀ k : Nat, v.values[k]?.getD 0 = w.values[k]?.getD 0 := fun k => by
        rw [values_getD, values_getD, ((padded_eq_iff hv hw k).mp (hsame k)).1]
      have hmain : comparePadded .zero v.main w.main = .eq :=
        comparePadded_of_same Component.zero hsame
      rw [hv.compare_eq hw, hmain, compareValues, comparePadded_of_same 0 hvalues]
    · by_cases hbeyond : UInt64.size ≤ v.value index ∧ UInt64.size ≤ w.value index
      · rw [compare_of_differ hv hw hdiffer, if_pos hbeyond, compareValues_of_differ hv hw hdiffer]
        by_contra hspelling
        exact h ⟨index, hdiffer, hbeyond.1, hbeyond.2, hspelling⟩
      · exact compare_eq_of_fits hv hw hdiffer hbeyond

/-- Equally many digits are not misordered. -/
theorem not_misordered_of_length (hv : v.Numeric) (hw : w.Numeric)
    (hlength : (v.digits index).length = (w.digits index).length) : ¬Misordered v w index := by
  rintro ⟨hdiffer, hleft, hright, hspelling⟩
  have hcompare : compare (v.digits index) (w.digits index) =
      compare (v.value index) (w.value index) :=
    Numeral.compare_of_length_eq (hv.digits_at index).2 (hw.digits_at index).2 hlength
  rw [hcompare] at hspelling
  -- As there are equally many, other digits have another value.
  cases hvalue : compare (v.value index) (w.value index) with
  | lt => exact hspelling (by rw [hvalue, Ordering.lt_then])
  | gt => exact hspelling (by rw [hvalue, Ordering.gt_then])
  | eq =>
      have hdigits := Std.LawfulEqOrd.eq_of_compare (hcompare.trans hvalue)
      exact hdiffer.here
        ((padded_eq_iff hv hw index).mpr ⟨Nat.compare_eq_eq.mp hvalue, fun _ => hdigits⟩)

/-- Versions of digits are equal if their components are the same, a missing one
    being zero. -/
theorem Numeric.beq_iff (hv : v.Numeric) (hw : w.Numeric) :
    (v == w) = true ↔ ∀ index, v.value index = w.value index ∧
      (UInt64.size ≤ v.value index → v.digits index = w.digits index) := by
  simp only [← padded_eq_iff hv hw]
  rw [beq_iff_compare]
  constructor
  · intro h
    rcases same_or_differ v.main w.main with hsame | ⟨index, hdiffer⟩
    · exact hsame
    · rw [hv.compare_eq hw, hdiffer.comparePadded_eq] at h
      exact absurd (Std.LawfulEqOrd.eq_of_compare h) hdiffer.here
  · intro hsame
    rw [hv.compare_eq hw]
    exact comparePadded_of_same Component.zero hsame

/-- Versions of digits compare by value, with zeros for components that are
    missing, unless they are misordered, which takes components beyond sixty-four
    bits with different numbers of digits. They are equal if their values are, but
    beyond sixty-four bits only if the digits are. -/
theorem compare_values_iff (v w : Version) (hv : v.Numeric) (hw : w.Numeric) :
    (compare v w = compareValues v w ↔ ¬∃ index, Misordered v w index) ∧
    ((∀ index, UInt64.size ≤ v.value index → UInt64.size ≤ w.value index →
      (v.digits index).length = (w.digits index).length) → compare v w = compareValues v w) ∧
    ((v == w) = true ↔ ∀ index, v.value index = w.value index ∧
      (UInt64.size ≤ v.value index → v.digits index = w.digits index)) := by
  refine ⟨compare_eq_compareValues_iff hv hw, fun hlength => ?_, hv.beq_iff hw⟩
  rw [compare_eq_compareValues_iff hv hw]
  rintro ⟨index, hmis⟩
  exact not_misordered_of_length hv hw (hlength index hmis.left hmis.right) hmis

/-- Time stamps of the same length compare by value however long they are. With a
    zero in front, a component beyond sixty-four bits is another one. -/
theorem compare_values_iff_stamps :
    compare (⟨"20240131123059000000002.1".toList⟩ : Version) ⟨"20240131123059000000010".toList⟩ =
        compareValues ⟨"20240131123059000000002.1".toList⟩ ⟨"20240131123059000000010".toList⟩ ∧
      ((⟨"1.018446744073709551616".toList⟩ : Version) == ⟨"1.18446744073709551616".toList⟩) =
        false := by
  have hlong : Numeric ⟨"20240131123059000000002.1".toList⟩ := ⟨⟨rfl, rfl⟩, by decide +kernel⟩
  have hshort : Numeric ⟨"20240131123059000000010".toList⟩ := ⟨⟨rfl, rfl⟩, by decide +kernel⟩
  have hzero : Numeric ⟨"1.018446744073709551616".toList⟩ := ⟨⟨rfl, rfl⟩, by decide +kernel⟩
  have hplain : Numeric ⟨"1.18446744073709551616".toList⟩ := ⟨⟨rfl, rfl⟩, by decide +kernel⟩
  constructor
  · refine (compare_values_iff _ _ hlong hshort).2.1 fun index _ hright => ?_
    cases index with
    | zero => decide +kernel
    | succ index =>
        -- Behind its only component the other version counts as zero.
        have hvalue : value ⟨"20240131123059000000010".toList⟩ (index + 1) = 0 := rfl
        rw [hvalue] at hright
        exact absurd hright (by decide)
  · refine Bool.eq_false_iff.mpr fun hequal => ?_
    have hsame := ((compare_values_iff _ _ hzero hplain).2.2.mp hequal 1).2 (by decide +kernel)
    exact absurd hsame (by decide +kernel)

/-- Components of digits do not always compare by value. Beyond sixty-four bits a
    one with twenty zeros comes before a number that has a digit less. -/
theorem not_compare_values :
    ¬∀ v w : Version, v.Numeric → w.Numeric → compare v w = compareValues v w := by
  intro h
  have hvalues := h ⟨"100000000000000000000".toList⟩ ⟨"18446744073709551616".toList⟩
    ⟨⟨rfl, rfl⟩, by decide +kernel⟩ ⟨⟨rfl, rfl⟩, by decide +kernel⟩
  exact absurd hvalues (by decide +kernel)

end Version

end PackageIndex
