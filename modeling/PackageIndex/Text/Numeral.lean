import PackageIndex.Text.Basic

/-!
# Decimal Numerals

A natural number is written in decimal without leading zeros; it may be read
with them. Only the ten digits of the ASCII range count as digits, so a
numeral in another script is ordinary text to everything that reads one here.

## Main definitions

* `Numeral.write`: The decimal digits of a number.
* `Numeral.read?`: The number a text of digits stands for.

## Theorems

* `read?_write`: What is written is read back.
-/

namespace PackageIndex

namespace Numeral

/-- The decimal digits of a number, with no leading zero. -/
def write (n : Nat) : Text := Nat.toDigits 10 n

/-- The number a text stands for, if it is digits and nothing else. Leading
    zeros are allowed, the empty text is not. -/
def read? (s : Text) : Option Nat :=
  if !s.isEmpty && s.all Char.isDigit then some (Nat.ofDigitChars 10 s 0) else none

/-- What is written is read back. -/
theorem read?_write (n : Nat) : read? (write n) = some n := by
  have hd : (Nat.toDigits 10 n).all Char.isDigit = true := by
    rw [List.all_eq_true]
    intro c hc
    exact Nat.isDigit_of_mem_toDigits (by omega) (by omega) hc
  simp [read?, write, hd, Nat.toDigits_ne_nil]

end Numeral

end PackageIndex
