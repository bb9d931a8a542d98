import PackageIndex.Json.Quoted

/-!
# Quoted Strings Read Back

A quoted text is read back as it was, whatever characters it holds and
whatever follows the closing quote. There is one step for each character: its
escape is taken in and the character is put in front of what is read
(`unquoteFrom_escape`), and the steps add up over the text.

Most control characters have no short escape. They are written with four
hexadecimal digits, of which two are zeros, and the halves of a pair never
occur.

## Theorems

* `unquoteFrom_escape`: An escape is read as its character.
* `unquote_quote`: A quoted text is read back.
-/

namespace PackageIndex

namespace Json

theorem hexValue?_hexDigit : ∀ n < 16, hexValue? (hexDigit n) = some n := by decide

/-- Four digits are at least four bytes. -/
theorem underFourBytes_cons (a b c d : Char) (s : Text) :
    underFourBytes (a :: b :: c :: d :: s) = false := by
  have ha := Char.utf8Size_pos a
  have hb := Char.utf8Size_pos b
  have hc := Char.utf8Size_pos c
  have hd := Char.utf8Size_pos d
  have hfour : ¬(0 + a.utf8Size + b.utf8Size + c.utf8Size + d.utf8Size < 4) := by omega
  simp only [underFourBytes, List.take_succ_cons, List.take_zero, List.foldl_cons, List.foldl_nil,
    hfour, decide_false]

/-- A digit that is not the last one is put behind those before it. -/
theorem unquoteFrom_digit {due value digit : Nat} {leading : Option Nat} {c : Char}
    (hdue : 1 < due) (hdigit : hexValue? c = some digit) (s : Text) :
    unquoteFrom (.hex due value leading) (c :: s) =
      unquoteFrom (.hex (due - 1) (value * 16 + digit) leading) s := by
  rw [unquoteFrom, hdigit]
  exact if_pos hdue

/-- The last digit of an escape completes a character, unless what it
    completes is half of a pair. -/
theorem unquoteFrom_last {value digit : Nat} {c : Char} (hdigit : hexValue? c = some digit)
    (hpair : value * 16 + digit < 0xD800) (s : Text) :
    unquoteFrom (.hex 1 value none) (c :: s) =
      prepend (Char.ofNat (value * 16 + digit)) (unquoteFrom .plain s) := by
  have htrailing : isTrailing (value * 16 + digit) = false := by
    rw [isTrailing, Bool.and_eq_false_iff, decide_eq_false_iff_not]
    omega
  have hleading : isLeading (value * 16 + digit) = false := by
    rw [isLeading, Bool.and_eq_false_iff, decide_eq_false_iff_not]
    omega
  rw [unquoteFrom, hdigit]
  simp only [Nat.lt_irrefl, htrailing, hleading, if_false, Bool.false_eq_true]

/-- Four digits of which the first two are zeros are read as the character
    they stand for. -/
theorem unquoteFrom_hex {n : Nat} (hn : n < 0x100) (s : Text) :
    unquoteFrom .backslash ('u' :: '0' :: '0' :: hexDigit (n / 16) :: hexDigit (n % 16) :: s) =
      prepend (Char.ofNat n) (unquoteFrom .plain s) := by
  have hzero : hexValue? '0' = some 0 := by decide
  have hhigh := hexValue?_hexDigit (n / 16) (by omega)
  have hlow := hexValue?_hexDigit (n % 16) (by omega)
  have hvalue : ((0 * 16 + 0) * 16 + 0) * 16 + n / 16 = n / 16 := by omega
  change (if underFourBytes _ = true then _ else _) = _
  rw [underFourBytes_cons, if_neg Bool.false_ne_true, unquoteFrom_digit (by omega) hzero,
    unquoteFrom_digit (by omega) hzero, unquoteFrom_digit (by omega) hhigh, hvalue,
    unquoteFrom_last hlow (by omega), Nat.mul_comm, Nat.div_add_mod]

/-- An escape is read as its character. -/
theorem unquoteFrom_escape (c : Char) (s : Text) :
    unquoteFrom .plain (escape c ++ s) = prepend c (unquoteFrom .plain s) := by
  unfold escape
  by_cases hquote : c = '"'
  · rw [if_pos hquote, hquote]
    rfl
  by_cases hbackslash : c = '\\'
  · rw [if_neg hquote, if_pos hbackslash, hbackslash]
    rfl
  by_cases hspace : c < ' '
  · -- A control character, with a short escape or without.
    rw [if_neg hquote, if_neg hbackslash]
    split
    · subst c
      rfl
    split
    · subst c
      rfl
    split
    · subst c
      rfl
    split
    · subst c
      rfl
    split
    · subst c
      rfl
    have hlt : c.toNat < 32 := hspace
    have hread := unquoteFrom_hex (n := c.toNat) (by omega) s
    rw [Char.ofNat_toNat] at hread
    exact hread
  · -- A character that stands for itself.
    have hne : ∀ d, d < ' ' → c ≠ d := fun d hd hc => hspace (hc ▸ hd)
    rw [if_neg hquote, if_neg hbackslash, if_neg (hne _ (by decide)), if_neg (hne _ (by decide)),
      if_neg (hne _ (by decide)), if_neg (hne _ (by decide)), if_neg (hne _ (by decide)),
      if_neg hspace, List.singleton_append, unquoteFrom, if_neg hquote, if_neg hbackslash,
      if_neg hspace]

/-- A quoted text is read back, once its opening quote has been read. -/
theorem unquote_quote (s rest : Text) :
    unquote (s.flatMap escape ++ '"' :: rest) = .ok (s, rest) := by
  unfold unquote
  induction s with
  | nil => rfl
  | cons c s ih => rw [List.flatMap_cons, List.append_assoc, unquoteFrom_escape, ih, prepend]

end Json

end PackageIndex
