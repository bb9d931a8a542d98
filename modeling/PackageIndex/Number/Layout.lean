import PackageIndex.Number.Shortest
import PackageIndex.Text.Numeral

/-!
# Decimal Layouts

How the digits of a number are laid out as text is a matter of convention, and
two conventions occur: one for stored revisions and one for listings. A layout
is a record of the decisions in which they differ.

Written `d.ddd` times a power of ten, a number has an exponent. A layout says
for which exponents the digits are written out in place, with zeros up to the
point, and what follows a whole number written that way. For all other
exponents the power of ten is written behind the digits, always with a sign.

## Main definitions

* `Layout`: The decisions of a convention.
* `Layout.write`: A number's text.
-/

namespace PackageIndex

/-- The decisions of a convention for writing numbers. -/
structure Layout where
  /-- Which of two equally near shortest decimals is written. -/
  tie : Tie
  /-- For which exponents the digits are written out in place. -/
  inPlace : Int → Bool
  /-- What follows a whole number whose digits are in place. -/
  whole : Text

namespace Layout

/-- Digits written out in place, for the exponent of the first one. -/
def positional (whole digits : Text) (exponent : Int) : Text :=
  if exponent < 0 then
    "0.".toList ++ List.replicate (-exponent - 1).toNat '0' ++ digits
  else
    let before := exponent.toNat + 1
    if digits.length ≤ before then
      digits ++ List.replicate (before - digits.length) '0' ++ whole
    else digits.take before ++ ['.'] ++ digits.drop before

/-- Digits with a power of ten behind them. -/
def scientific (digits : Text) (exponent : Int) : Text :=
  let fraction := digits.drop 1
  digits.take 1 ++ (if fraction.isEmpty then [] else '.' :: fraction) ++
    (if exponent < 0 then ['e', '-'] else ['e', '+']) ++ Numeral.write exponent.natAbs

/-- A decimal's text. -/
def writeDecimal (layout : Layout) (decimal : Decimal) : Text :=
  let digits := Numeral.write decimal.digits
  let exponent : Int := digits.length - 1 + decimal.place - unitExponent
  if layout.inPlace exponent then positional layout.whole digits exponent
  else scientific digits exponent

/-- A number's text. -/
def write (layout : Layout) : Binary64 → Text
  | .nan => "NaN".toList
  | .infinite negative => if negative then "-inf".toList else "inf".toList
  | .finite negative m =>
    let text := layout.writeDecimal (m.shortest layout.tie)
    if negative then '-' :: text else text

end Layout

end PackageIndex
