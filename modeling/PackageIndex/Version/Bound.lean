import PackageIndex.Version.Order

/-!
# Bounds of a Version

Ranges are intervals, and the ends of an interval are made from the version
that the range is written with. An end is written as text and read as a
version like any other.

Counting a component up fails when it is text, and when it is the greatest
number that a component can be. The components before it are kept, and one
that is missing counts as zero.

## Main definitions

* `Version.counted`: The components up to an index, the last counted up.
* `Version.bump`: The next version at an index, zeros behind it.
* `Version.upperBound`: A bound below every version the bump is made of.
* `Version.lowerBound`: A bound that the pre-releases of a version pass.
-/

namespace PackageIndex

namespace Version

/-- The text of the component at an index, where a missing one counts as
    zero. -/
def componentText (v : Version) (index : Nat) : Text :=
  ((v.component? index).getD .zero).write

/-- The successor of the component at an index, if it has one. -/
def successor? (v : Version) (index : Nat) : Option Nat :=
  match v.component? index with
  | none => some 1
  | some (.number n) => if n.toNat + 1 < UInt64.size then some (n.toNat + 1) else none
  | some (.text _) => none

/-- The texts of the components up to an index, with the one at the index
    counted up. -/
def counted (v : Version) (index : Nat) : Except Refusal (List Text) :=
  match v.successor? index with
  | none => .error (.notNumeric v.text index)
  | some n => .ok ((List.range index).map v.componentText ++ [Numeral.write n])

/-- The next version at an index, with zeros for the components behind it:
    `1.2.3` at index `1` becomes `1.3.0`. -/
def bump (v : Version) (index : Nat) : Except Refusal Version := do
  let front ← v.counted index
  let zeros := List.replicate (v.main.length - (index + 1)) ['0']
  return ⟨Text.join ['.'] (front ++ zeros)⟩

/-- The exclusive upper end of a range pinned at an index: `1.2.3` at index
    `1` gives `1.3-`. The empty pre-release keeps the pre-releases of `1.3` out
    as well. -/
def upperBound (v : Version) (index : Nat) : Except Refusal Version := do
  let front ← v.counted index
  return ⟨Text.join ['.'] front ++ ['-']⟩

/-- The inclusive lower end of a range that starts at a version: `1.2.3` gives
    `1.2.3-`, which its pre-releases pass. A version that already has a
    pre-release or a build is its own lower end. -/
def lowerBound (v : Version) : Version :=
  if v.pre?.isSome || v.build?.isSome then v else ⟨v.text ++ ['-']⟩

end Version

end PackageIndex
