import PackageIndex.Json.Number
import PackageIndex.Proofs.Text.Numeral

/-!
# Numbers as They Are Spelled

A number is read in two steps, its form first and its value second, and this
module says what either does with a number that is written properly.

`Spelling.text` writes the parts of a number down one behind the other. If the
parts are what they should be (`Spelling.Proper`), and what follows cannot be
taken for more of the number (`EndsNumber`), the form is read back as it was
(`spelling_text`). The condition on what follows is needed, since digits are
read as far as they go.

The value is that of all digits before and behind the point as one whole
number, scaled by the power of ten with one step less for each digit behind
the point (`magnitude?_eq`). That holds as long as the digits fit sixty-four
bits, and digits in excess of those are none of this module's concern.

## Main definitions

* `EndsNumber`: A text that does not continue a number.
* `Spelling.text`: The parts of a number, written down.
* `Spelling.Proper`: Parts that are read back.
* `Spelling.coefficient`: The digits on both sides of the point.
* `Spelling.exponent`: The power of ten those digits are scaled by.

## Theorems

* `spelling_text`: The form is read back from the text.
* `magnitude?_eq`: The value is that of the digits, scaled.
-/

namespace PackageIndex

namespace Json

/-- What was read is handed on. -/
theorem ok_bind {ε α β : Type} (a : α) (f : α → Except ε β) : (Except.ok a >>= f) = f a := rfl

/-- A text that does not continue a number written in front of it. -/
def EndsNumber (rest : Text) : Prop :=
  ∀ c ∈ rest.head?, c.isDigit = false ∧ c ≠ '.' ∧ c ≠ 'e' ∧ c ≠ 'E'

/-- A text that does not begin with a digit. -/
def EndsDigits (rest : Text) : Prop := ∀ c ∈ rest.head?, c.isDigit = false

theorem EndsNumber.endsDigits {rest : Text} (h : EndsNumber rest) : EndsDigits rest :=
  fun c hc => (h c hc).1

theorem endsDigits_cons {c : Char} (hc : c.isDigit = false) (rest : Text) :
    EndsDigits (c :: rest) := by
  intro d hd
  rw [List.head?_cons, Option.mem_some_iff] at hd
  rw [← hd]
  exact hc

/-- Digits are read up to where they end. -/
theorem digits_append {w rest : Text} (hne : w ≠ []) (hw : ∀ c ∈ w, c.isDigit = true)
    (hrest : EndsDigits rest) : digits (w ++ rest) = .ok (w, rest) := by
  have htake : rest.takeWhile Char.isDigit = [] := by
    cases rest with
    | nil => rfl
    | cons c rest => rw [List.takeWhile_cons, hrest c rfl, if_neg Bool.false_ne_true]
  have hdrop : rest.dropWhile Char.isDigit = rest := by
    cases rest with
    | nil => rfl
    | cons c rest => rw [List.dropWhile_cons, hrest c rfl, if_neg Bool.false_ne_true]
  cases w with
  | nil => exact absurd rfl hne
  | cons c w =>
      rw [List.cons_append, digits, if_pos (hw c (List.mem_cons_self)), ← List.cons_append,
        List.takeWhile_append_of_pos hw, List.dropWhile_append_of_pos hw, htake, hdrop,
        List.append_nil]

/-- The digits before the point are read up to where they end. -/
theorem wholeDigits_append {w rest : Text} (hne : w ≠ []) (hw : ∀ c ∈ w, c.isDigit = true)
    (hzero : w.head? = some '0' → w.length ≤ 1) (hrest : EndsDigits rest) :
    wholeDigits (w ++ rest) = .ok (w, rest) := by
  have hcond : (w.head? = some '0' && 1 < w.length : Bool) = false := by
    by_cases h : w.head? = some '0'
    · have := hzero h
      simp only [h, decide_true, Bool.true_and, decide_eq_false_iff_not]
      omega
    · simp only [h, decide_false, Bool.false_and]
  rw [wholeDigits, digits_append hne hw hrest]
  change (if _ then _ else _ : Except Fault (Text × Text)) = _
  rw [hcond, if_neg Bool.false_ne_true]

/-- The point and the digits after it, or neither. -/
def fractionText (fraction : Text) : Text := if fraction.isEmpty then [] else '.' :: fraction

/-- The power of ten, with its sign, or nothing. -/
def powerText (divides : Bool) (power : Text) : Text :=
  if power.isEmpty then [] else 'e' :: (if divides then '-' else '+') :: power

theorem fractionDigits_append {f rest : Text} (hf : ∀ c ∈ f, c.isDigit = true)
    (hrest : EndsDigits rest) (hpoint : rest.head? ≠ some '.') :
    fractionDigits (fractionText f ++ rest) = .ok (f, rest) := by
  unfold fractionText
  cases f with
  | nil =>
      rw [List.isEmpty_nil, if_pos rfl, List.nil_append]
      unfold fractionDigits
      split
      · exact absurd rfl hpoint
      · rfl
  | cons c f =>
      rw [List.isEmpty_cons, if_neg Bool.false_ne_true, List.cons_append]
      exact digits_append (List.cons_ne_nil c f) hf hrest

theorem powerDigits_append {divides : Bool} {power rest : Text}
    (hpower : ∀ c ∈ power, c.isDigit = true) (hdivides : power = [] → divides = false)
    (hrest : EndsNumber rest) :
    powerDigits (powerText divides power ++ rest) = .ok ((divides, power), rest) := by
  unfold powerText
  cases power with
  | nil =>
      rw [List.isEmpty_nil, if_pos rfl, List.nil_append, hdivides rfl]
      cases rest with
      | nil => rfl
      | cons c rest =>
          have ⟨_, _, he, hE⟩ := hrest c rfl
          unfold powerDigits
          simp only [he, hE, decide_false, Bool.or_self, Bool.false_eq_true, if_false]
  | cons c power =>
      have hread := digits_append (List.cons_ne_nil c power) hpower hrest.endsDigits
      cases divides with
      | false =>
          change powerDigits ('e' :: '+' :: (c :: power ++ rest)) = _
          unfold powerDigits
          simp only [decide_true, Bool.true_or, if_true]
          rw [hread]
          rfl
      | true =>
          change powerDigits ('e' :: '-' :: (c :: power ++ rest)) = _
          unfold powerDigits
          simp only [decide_true, Bool.true_or, if_true]
          rw [hread]
          rfl

namespace Spelling

/-- The parts of a number, written down one behind the other. -/
def text (sp : Spelling) : Text :=
  (if sp.negative then ['-'] else []) ++ (sp.whole ++
    (fractionText sp.fraction ++ powerText sp.divides sp.power))

/-- Parts of a number that are read back from its text. -/
structure Proper (sp : Spelling) : Prop where
  whole_ne_nil : sp.whole ≠ []
  whole_digits : ∀ c ∈ sp.whole, c.isDigit = true
  whole_head : sp.whole.head? = some '0' → sp.whole.length ≤ 1
  fraction_digits : ∀ c ∈ sp.fraction, c.isDigit = true
  power_digits : ∀ c ∈ sp.power, c.isDigit = true
  divides_power : sp.power = [] → sp.divides = false

end Spelling

/-- Neither a point nor a digit stands where the power of ten is due. -/
theorem powerText_append_ends (divides : Bool) (power : Text) {rest : Text}
    (hrest : EndsNumber rest) :
    EndsDigits (powerText divides power ++ rest) ∧
      (powerText divides power ++ rest).head? ≠ some '.' := by
  unfold powerText
  cases power with
  | nil =>
      rw [List.isEmpty_nil, if_pos rfl, List.nil_append]
      exact ⟨hrest.endsDigits, fun h => (hrest '.' h).2.1 rfl⟩
  | cons c power =>
      rw [List.isEmpty_cons, if_neg Bool.false_ne_true, List.cons_append]
      exact ⟨endsDigits_cons (by decide) _, by rw [List.head?_cons]; decide⟩

/-- The form of a number is read back from its text. -/
theorem spelling_text {sp : Spelling} (h : sp.Proper) {rest : Text} (hrest : EndsNumber rest) :
    spelling (sp.text ++ rest) = .ok (sp, rest) := by
  obtain ⟨negative, whole, fraction, divides, power⟩ := sp
  obtain ⟨hne, hwhole, hhead, hfraction, hpower, hdivides⟩ := h
  simp only at hne hwhole hhead hfraction hpower hdivides
  obtain ⟨hdigits, hpoint⟩ := powerText_append_ends divides power hrest
  -- Each part ends where the next one begins, whichever of them is there.
  have hends : EndsDigits (fractionText fraction ++ (powerText divides power ++ rest)) := by
    unfold fractionText
    cases fraction with
    | nil => exact hdigits
    | cons c fraction => exact endsDigits_cons (by decide) _
  have hsign : whole.head? ≠ some '-' := by
    cases whole with
    | nil => exact absurd rfl hne
    | cons c whole =>
        intro hc
        have := hwhole c List.mem_cons_self
        rw [List.head?_cons, Option.some.injEq] at hc
        rw [hc] at this
        exact absurd this (by decide)
  unfold spelling Spelling.text
  simp only [List.append_assoc]
  cases negative with
  | true =>
      simp only [if_true, List.singleton_append]
      rw [wholeDigits_append hne hwhole hhead hends, ok_bind]
      simp only
      rw [fractionDigits_append hfraction hdigits hpoint, ok_bind]
      simp only
      rw [powerDigits_append hpower hdivides hrest]
      rfl
  | false =>
      -- No sign is read, since the first character is a digit.
      obtain ⟨c, others, rfl⟩ := List.exists_cons_of_ne_nil hne
      have hc : c ≠ '-' := fun hc => hsign (by rw [hc, List.head?_cons])
      simp only [Bool.false_eq_true, if_false, List.nil_append]
      split
      · next heq => exact absurd (List.cons.inj heq).1 hc
      · simp only
        rw [wholeDigits_append hne hwhole hhead hends, ok_bind]
        simp only
        rw [fractionDigits_append hfraction hdigits hpoint, ok_bind]
        simp only
        rw [powerDigits_append hpower hdivides hrest]
        rfl

/-- Digits put behind a number do not make it smaller. -/
theorem le_ofDigitChars (w : Text) (n : Nat) : n ≤ Nat.ofDigitChars 10 w n := by
  rw [Nat.ofDigitChars_eq_ofDigitChars_zero]
  have : n ≤ 10 ^ w.length * n := Nat.le_mul_of_pos_left n (Nat.pow_pos (by omega))
  omega

/-- Digits that fit sixty-four bits are all absorbed. -/
theorem absorb_eq {w : Text} {n : Nat} (h : Nat.ofDigitChars 10 w n < UInt64.size) :
    absorb n w = (Nat.ofDigitChars 10 w n, 0) := by
  induction w generalizing n with
  | nil => rfl
  | cons c w ih =>
      rw [Nat.ofDigitChars_cons, Nat.mul_comm] at h
      -- The digits taken in so far are no more than all of them.
      have hfits := Nat.lt_of_le_of_lt (le_ofDigitChars w _) h
      rw [absorb, Nat.ofDigitChars_cons, Nat.mul_comm 10 n]
      simp only [hfits, if_true]
      exact ih h

namespace Spelling

/-- The digits on both sides of the point, as one whole number. -/
def coefficient (sp : Spelling) : Nat := Nat.ofDigitChars 10 (sp.whole ++ sp.fraction) 0

/-- The power of ten that the coefficient is scaled by. -/
def exponent (sp : Spelling) : Int :=
  (if sp.divides then -(Nat.ofDigitChars 10 sp.power 0 : Int) else Nat.ofDigitChars 10 sp.power 0) -
    sp.fraction.length

/-- The value of a number whose digits fit is its coefficient, scaled. -/
theorem magnitude?_eq {sp : Spelling} (hfit : sp.coefficient < UInt64.size)
    (hpower : Nat.ofDigitChars 10 sp.power 0 ≤ greatestPower) :
    sp.magnitude? = scaled sp.coefficient sp.exponent := by
  unfold coefficient at hfit
  rw [Nat.ofDigitChars_append] at hfit
  have hwhole := Nat.lt_of_le_of_lt (le_ofDigitChars sp.fraction _) hfit
  unfold magnitude? coefficient exponent
  rw [absorb_eq hwhole]
  simp only
  rw [absorb_eq hfit, Nat.ofDigitChars_append]
  simp only
  rw [if_neg (by omega)]
  congr 1
  -- No digit was dropped or left unused, so the place is that of the last one.
  cases sp.divides with
  | true =>
      rw [if_pos rfl, if_pos rfl]
      omega
  | false =>
      rw [if_neg Bool.false_ne_true, if_neg Bool.false_ne_true]
      omega

end Spelling

end Json

end PackageIndex
