import PackageIndex.Json.Scan
import PackageIndex.Number.Binary64

/-!
# Reading Numbers

A number is digits without a leading zero, then perhaps a point and digits,
then perhaps a power of ten. That much is its form. Its value is found the
quick way, and so is not always the nearest there is: as many digits as fit
sixty-four bits make a whole number, the rest only count as places, and one
multiplication or division by a power of ten, each rounded, does what is left.
A time can therefore change by its last bit when it is written and read again.

Digits that do not fit are dropped where they do not fit. Once an integer
digit is dropped, so are all that follow it, but the fraction starts afresh,
and a digit of it that still fits is used.

A power of ten beyond the table is divided out in steps. Multiplying by one is
a fault, unless there is nothing to multiply.

## Main definitions

* `Spelling`: The digits of a number as written.
* `spelling`: The form of a number.
* `Spelling.value?`: Its value, if it is not too large.
* `number`: A number that is used.
* `passNumber`: What follows a number that is passed over.
-/

namespace PackageIndex

namespace Json

/-- The digits of a number as written. -/
structure Spelling where
  negative : Bool
  /-- The digits before the point. -/
  whole : Text
  /-- The digits after the point. -/
  fraction : Text
  /-- Whether the power of ten divides. -/
  divides : Bool
  /-- The digits of the power of ten. -/
  power : Text
  deriving DecidableEq

/-- The digits at the front of a text, of which there must be one. -/
def digits (s : Text) : Except Fault (Text × Text) :=
  match s with
  | [] => .error .truncated
  | c :: _ =>
    if c.isDigit then .ok (s.takeWhile Char.isDigit, s.dropWhile Char.isDigit)
    else .error .malformed

/-- The digits before the point: a zero alone, or digits that start with
    another one. -/
def wholeDigits (s : Text) : Except Fault (Text × Text) := do
  let (whole, rest) ← digits s
  if whole.head? = some '0' && 1 < whole.length then .error .malformed else .ok (whole, rest)

/-- The point and the digits after it, if there is a point. -/
def fractionDigits : Text → Except Fault (Text × Text)
  | '.' :: rest => digits rest
  | rest => .ok ([], rest)

/-- The power of ten, if there is one: whether it divides, and its digits. -/
def powerDigits : Text → Except Fault ((Bool × Text) × Text)
  | [] => .ok ((false, []), [])
  | c :: rest =>
    if c = 'e' || c = 'E' then do
      let (divides, rest) := match rest with
        | '+' :: rest => (false, rest)
        | '-' :: rest => (true, rest)
        | rest => (false, rest)
      let (power, rest) ← digits rest
      return ((divides, power), rest)
    else .ok ((false, []), c :: rest)

/-- The form of a number. -/
def spelling (s : Text) : Except Fault (Spelling × Text) := do
  let (negative, s) := match s with
    | '-' :: rest => (true, rest)
    | rest => (false, rest)
  let (whole, s) ← wholeDigits s
  let (fraction, s) ← fractionDigits s
  let ((divides, power), s) ← powerDigits s
  return (⟨negative, whole, fraction, divides, power⟩, s)

/-- A whole number with digits put behind it as long as it fits sixty-four
    bits, and how many digits are left over. -/
def absorb (n : Nat) : Text → Nat × Nat
  | [] => (n, 0)
  | c :: rest =>
    let next := n * 10 + (c.toNat - '0'.toNat)
    if next < UInt64.size then absorb next rest else (n, rest.length + 1)

/-- The greatest power of ten in the table. -/
def tablePower : Nat := 308

/-- A magnitude times a power of ten of the table. -/
def timesPower (m : Magnitude) (power : Nat) : Option Magnitude := do
  m.mul (← Magnitude.ofNat (Nat.pow 10 power))

/-- A magnitude divided by a power of ten of the table. -/
def overPower (m : Magnitude) (power : Nat) : Option Magnitude := do
  m.div (← Magnitude.ofNat (Nat.pow 10 power))

/-- A magnitude divided so many times by the greatest power of the table,
    until nothing is left of it. -/
def divideOut : Nat → Magnitude → Option Magnitude
  | 0, m => some m
  | steps + 1, m =>
    if m.rank = 0 then some m else overPower m tablePower >>= divideOut steps

/-- A whole number times a power of ten, if that is finite. -/
def scaled (n : Nat) (exponent : Int) : Option Magnitude := do
  let m ← Magnitude.ofNat n
  if 0 ≤ exponent then
    if exponent ≤ tablePower then timesPower m exponent.toNat
    else if m.rank = 0 then some m
    else none
  else
    let power := exponent.natAbs
    let steps := (power - 1) / tablePower
    overPower (← divideOut steps m) (power - steps * tablePower)

/-- The greatest power of ten that is looked at: the greatest signed number of
    thirty-two bits. -/
def greatestPower : Nat := 2147483647

namespace Spelling

/-- The magnitude of a number, if it is finite. -/
def magnitude? (sp : Spelling) : Option Magnitude :=
  let (n, dropped) := absorb 0 sp.whole
  let (n, unused) := absorb n sp.fraction
  let place : Int := dropped - (sp.fraction.length - unused : Nat)
  let power := Nat.ofDigitChars 10 sp.power 0
  if greatestPower < power then
    if n = 0 || sp.divides then some .zero else none
  else scaled n (if sp.divides then place - power else place + power)

/-- The value of a number, if it is finite. Zero keeps its sign. -/
def value? (sp : Spelling) : Option Binary64 := sp.magnitude?.map (.finite sp.negative)

end Spelling

/-- A number that is used. One that is too large breaks the notation. -/
def number : Reader Binary64 := fun s => do
  let (sp, rest) ← spelling s
  match sp.value? with
  | some x => .ok (x, rest)
  | none => .error .malformed

/-- What follows a number that is passed over. Any size will do, and one that
    ends too early counts as broken. -/
def passNumber (s : Text) : Except Fault Text :=
  match spelling s with
  | .ok (_, rest) => .ok rest
  | .error _ => .error .malformed

end Json

end PackageIndex
