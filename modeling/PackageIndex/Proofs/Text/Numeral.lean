import Mathlib.Data.List.Induction
import Mathlib.Tactic.Ring
import PackageIndex.Text.Numeral

/-!
# The Digits of a Numeral

A numeral consists of digits, it has at least one, and only that of zero
begins with a zero. How many digits it has says how great the number is. All
digits that are not a numeral are so because they begin with a zero that does
not stand alone.

Digits are also compared as the texts they are. That is comparing their values
as long as there are equally many on both sides, for then the first that differ
count equally often (`compare_of_length_eq`).

## Theorems

* `isDigit_of_mem_write`: A numeral consists of digits.
* `ofDigitChars_write`: The digits have the value of the number.
* `length_write_le_iff`: A number with few digits is small.
* `head?_write_ne_zero`: A numeral does not begin with a zero.
* `write_ofDigitChars_eq_iff`: Which digits are the numeral of their value.
* `ofDigitChars_lt`: Few digits have a small value.
* `compare_of_length_eq`: As many digits compare as their values do.
-/

namespace PackageIndex

namespace Numeral

/-- The digits of a numeral are digits. -/
theorem isDigit_of_mem_write {n : Nat} {c : Char} (h : c ∈ write n) : c.isDigit = true :=
  Nat.isDigit_of_mem_toDigits (by omega) (by omega) h

theorem write_ne_nil (n : Nat) : write n ≠ [] := Nat.toDigits_ne_nil

theorem ofDigitChars_write (n : Nat) : Nat.ofDigitChars 10 (write n) 0 = n :=
  Nat.ofDigitChars_ten_toDigits

/-- What can be read as a number consists of digits. -/
theorem isDigit_of_read? {s : Text} {n : Nat} (h : read? s = some n) :
    ∀ c ∈ s, c.isDigit = true := by
  unfold read? at h
  by_cases hs : (!s.isEmpty && s.all Char.isDigit) = true
  · exact List.all_eq_true.mp (Bool.and_eq_true_iff.mp hs).2
  · rw [if_neg hs] at h
    cases h

theorem length_write_le_iff {n k : Nat} (hk : 0 < k) : (write n).length ≤ k ↔ n < 10 ^ k :=
  Nat.length_toDigits_le_iff (by omega) hk

/-- A numeral does not begin with a zero, unless it is zero. -/
theorem head?_write_ne_zero {n : Nat} (hn : n ≠ 0) : (write n).head? ≠ some '0' := by
  induction n using Nat.strongRecOn with
  | _ n ih =>
      unfold write
      by_cases hlt : n < 10
      · rw [Nat.toDigits_of_lt_base hlt, List.head?_cons]
        have hdigit : ∀ d < 10, d ≠ 0 → Nat.digitChar d ≠ '0' := by decide
        exact fun hc => hdigit n hlt hn (Option.some.inj hc)
      · -- The first digit is that of a tenth of the number.
        have hfirst := ih (n / 10) (by omega) (by omega)
        unfold write at hfirst
        obtain ⟨c, others, hc⟩ := List.exists_cons_of_ne_nil
          (Nat.toDigits_ne_nil : Nat.toDigits 10 (n / 10) ≠ [])
        rw [hc, List.head?_cons] at hfirst
        rw [Nat.toDigits_of_base_le (by omega) (by omega), hc, List.cons_append, List.head?_cons]
        exact hfirst

theorem exists_digitChar_eq {c : Char} (hc : c.isDigit = true) : ∃ d < 10, Nat.digitChar d = c := by
  obtain ⟨hlow, hhigh⟩ := Char.isDigit_iff_toNat.mp hc
  have hzero : '0'.toNat = 48 := rfl
  have hnine : '9'.toNat = 57 := rfl
  have hlt : c.toNat - 48 < 10 := by omega
  refine ⟨c.toNat - 48, hlt, Char.toNat_inj.mp ?_⟩
  rw [Nat.toNat_digitChar_of_lt_ten hlt]
  omega

theorem write_ofDigitChars {s : Text} (hne : s ≠ []) (hdigits : ∀ c ∈ s, c.isDigit = true)
    (hhead : s.head? = some '0' → s.length = 1) : write (Nat.ofDigitChars 10 s 0) = s := by
  induction s using List.reverseRecOn with
  | nil => exact absurd rfl hne
  | append_singleton t c ih =>
      rcases exists_digitChar_eq (hdigits c (by simp)) with ⟨d, hd, rfl⟩
      rw [Nat.ofDigitChars_append, Nat.ofDigitChars_cons_digitChar_of_lt_ten hd, Nat.ofDigitChars_nil]
      cases t with
      | nil =>
          rw [Nat.ofDigitChars_nil, Nat.mul_zero, Nat.zero_add]
          exact Nat.toDigits_of_lt_base hd
      | cons first t =>
          -- What stands in front of the last digit does not begin with a zero, so its value
          -- is not zero, and the last digit is put behind its numeral.
          have hfirst : first ≠ '0' := by
            rintro rfl
            have halone := hhead rfl
            simp at halone
          have hfront := ih (List.cons_ne_nil _ _) (fun c hc => hdigits c (List.mem_append_left _ hc))
            fun h => absurd (Option.some.inj h) hfirst
          have hpos : 0 < Nat.ofDigitChars 10 (first :: t) 0 := by
            refine Nat.pos_of_ne_zero fun hzero => hfirst ?_
            rw [hzero] at hfront
            exact (List.cons.inj hfront).1.symm
          unfold write at hfront ⊢
          rw [← Nat.toDigits_append_toDigits (by omega) hpos hd, hfront, Nat.toDigits_of_lt_base hd]

/-- Digits are the numeral of their value, unless they begin with a zero that
    does not stand alone. -/
theorem write_ofDigitChars_eq_iff {s : Text} (hne : s ≠ []) (hdigits : ∀ c ∈ s, c.isDigit = true) :
    write (Nat.ofDigitChars 10 s 0) = s ↔ (s.head? = some '0' → s.length = 1) := by
  refine ⟨fun h hhead => ?_, write_ofDigitChars hne hdigits⟩
  -- A numeral that begins with a zero is that of zero.
  have hzero : Nat.ofDigitChars 10 s 0 = 0 := by
    by_contra hvalue
    have hfirst := head?_write_ne_zero hvalue
    rw [h] at hfirst
    exact hfirst hhead
  rw [← h, hzero]
  rfl

/-- What two numbers have in common makes no difference. -/
theorem compare_add_left (k m n : Nat) : compare (k + m) (k + n) = compare m n := by
  change compareOfLessAndEq (k + m) (k + n) = compareOfLessAndEq m n
  simp only [compareOfLessAndEq, Nat.add_lt_add_iff_left, Nat.add_left_cancel_iff]

/-- Digits compare by their values. -/
theorem compare_digit {c d : Char} (hc : c.isDigit = true) (hd : d.isDigit = true) :
    compare c d = compare (c.toNat - '0'.toNat) (d.toNat - '0'.toNat) := by
  have hchar : compare c d = compare c.toNat d.toNat := by
    change compareOfLessAndEq c d = compareOfLessAndEq c.toNat d.toNat
    simp only [compareOfLessAndEq, Char.toNat_inj]
    rfl
  have hzero := compare_add_left '0'.toNat (c.toNat - '0'.toNat) (d.toNat - '0'.toNat)
  rw [Nat.add_sub_cancel' (Char.isDigit_iff_toNat.mp hc).1,
    Nat.add_sub_cancel' (Char.isDigit_iff_toNat.mp hd).1] at hzero
  exact hchar.trans hzero

/-- The first digit counts as often as there are numbers with the digits behind it. -/
theorem ofDigitChars_cons_eq (c : Char) (s : Text) :
    Nat.ofDigitChars 10 (c :: s) 0 =
      10 ^ s.length * (c.toNat - '0'.toNat) + Nat.ofDigitChars 10 s 0 := by
  rw [Nat.ofDigitChars_cons, Nat.ofDigitChars_eq_ofDigitChars_zero, Nat.mul_zero, Nat.zero_add]

/-- Digits have a value below the power of ten that takes a digit more. -/
theorem ofDigitChars_lt {s : Text} (hdigits : ∀ c ∈ s, c.isDigit = true) :
    Nat.ofDigitChars 10 s 0 < 10 ^ s.length := by
  induction s with
  | nil => exact Nat.one_pos
  | cons c s ih =>
      have hrest := ih fun d hd => hdigits d (List.mem_cons_of_mem c hd)
      have hdigit := (Char.isDigit_iff_toNat.mp (hdigits c List.mem_cons_self)).2
      have hzero : '0'.toNat = 48 := rfl
      have hnine : '9'.toNat = 57 := rfl
      have hfirst : 10 ^ s.length * (c.toNat - 48) ≤ 10 ^ s.length * 9 :=
        Nat.mul_le_mul_left _ (by omega)
      rw [ofDigitChars_cons_eq, List.length_cons, Nat.pow_succ, hzero]
      omega

/-- Of two numbers in parts the greater part decides first. -/
theorem compare_mul_add {p u w : Nat} (hu : u < p) (hw : w < p) (x y : Nat) :
    compare (p * x + u) (p * y + w) = (compare x y).then (compare u w) := by
  have hless : ∀ {m n i j : Nat}, m < n → i < p → p * m + i < p * n + j := by
    intro m n i j hmn hi
    have hmul : p * (m + 1) ≤ p * n := Nat.mul_le_mul_left p hmn
    rw [Nat.mul_succ] at hmul
    omega
  rcases Nat.lt_trichotomy x y with hlt | rfl | hgt
  · rw [Nat.compare_eq_lt.mpr hlt, Nat.compare_eq_lt.mpr (hless hlt hu)]
    rfl
  · rw [Std.ReflOrd.compare_self, Ordering.eq_then, compare_add_left]
  · rw [Nat.compare_eq_gt.mpr hgt, Nat.compare_eq_gt.mpr (hless hgt hw)]
    rfl

/-- As many digits compare as texts as their values do. -/
theorem compare_of_length_eq {s t : Text} (hs : ∀ c ∈ s, c.isDigit = true)
    (ht : ∀ c ∈ t, c.isDigit = true) (hlength : s.length = t.length) :
    compare s t = compare (Nat.ofDigitChars 10 s 0) (Nat.ofDigitChars 10 t 0) := by
  induction s generalizing t with
  | nil =>
      rw [List.eq_nil_of_length_eq_zero hlength.symm]
      rfl
  | cons c s ih =>
      cases t with
      | nil => exact absurd hlength (by simp)
      | cons d t =>
          have hs' : ∀ c ∈ s, c.isDigit = true := fun e he => hs e (List.mem_cons_of_mem c he)
          have ht' : ∀ c ∈ t, c.isDigit = true := fun e he => ht e (List.mem_cons_of_mem d he)
          have hrest := Nat.succ.inj hlength
          have hslt := ofDigitChars_lt hs'
          have htlt := ofDigitChars_lt ht'
          have hfirst := compare_digit (hs c List.mem_cons_self) (ht d List.mem_cons_self)
          rw [hrest] at hslt
          rw [List.compare_cons_cons, hfirst, ih hs' ht' hrest, ← compare_mul_add hslt htlt,
            ofDigitChars_cons_eq, ofDigitChars_cons_eq, hrest]

end Numeral

end PackageIndex
