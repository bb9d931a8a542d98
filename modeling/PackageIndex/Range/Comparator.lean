import PackageIndex.Version.Bound

/-!
# Comparators

A comparator is one test against a bound. A range is written in words, and a
word stands for one comparator or for two: an exact version or a comparison
for one, a tilde or a caret for both ends of an interval.

* `1.2.3` and `=1.2.3` ask for that version, `>`, `>=`, `<` and `<=` compare.
* `~1.2.3` pins the second component, or the first of a version that has no
  second: `>=1.2.3-` and `<1.3-`.
* `^1.2.3` pins the first component that is not zero, or the one behind the
  last if all are: `>=1.2.3-` and `<2-`.
* `*` and the empty word ask for any version.

An inclusive lower end lets the pre-releases of its own version in, as
`Version.lowerBound` says. An exclusive upper end written out does not keep
those of its version out, and one made by a tilde or a caret does.

## Main definitions

* `Relation`: How a version must compare with a bound.
* `Comparator`: A relation and a bound.
* `Operator`: What a word starts with.
* `Comparator.ofWord`: The comparators a word stands for.
-/

namespace PackageIndex

/-- How a version must compare with a bound. -/
inductive Relation where
  | eq
  | lt
  | le
  | gt
  | ge
  deriving DecidableEq

namespace Relation

/-- The sign a relation is written with. -/
def sign : Relation → Text
  | .eq => ['=']
  | .lt => ['<']
  | .le => ['<', '=']
  | .gt => ['>']
  | .ge => ['>', '=']

/-- Whether a relation holds when the version compares with the bound as
    given. -/
def holds : Relation → Ordering → Bool
  | .eq, o => o.isEq
  | .lt, o => o.isLT
  | .le, o => o.isLE
  | .gt, o => o.isGT
  | .ge, o => o.isGE

end Relation

/-- One test against a bound. -/
structure Comparator where
  relation : Relation
  bound : Version
  deriving DecidableEq

namespace Comparator

/-- Whether a version passes the test. -/
def accepts (c : Comparator) (v : Version) : Bool := c.relation.holds (compare v c.bound)

/-- A comparator as it is written. -/
def write (c : Comparator) : Text := c.relation.sign ++ c.bound.text

end Comparator

/-- What a word of a range starts with. -/
inductive Operator where
  /-- A comparison, equality if nothing is written. -/
  | relation (relation : Relation)
  /-- A tilde. -/
  | tilde
  /-- A caret. -/
  | caret
  deriving DecidableEq

namespace Operator

/-- The operator at the front of a word and what follows it. The longest
    operator is read, so `>=` is never `>` before a version that starts with
    `=`. -/
def read : Text → Operator × Text
  | '>' :: '=' :: body => (.relation .ge, body)
  | '<' :: '=' :: body => (.relation .le, body)
  | '>' :: body => (.relation .gt, body)
  | '<' :: body => (.relation .lt, body)
  | '^' :: body => (.caret, body)
  | '~' :: body => (.tilde, body)
  | '=' :: body => (.relation .eq, body)
  | body => (.relation .eq, body)

/-- The index a tilde pins: the second component if there is one. -/
def tildeIndex (v : Version) : Nat := if 1 < v.main.length then 1 else 0

/-- The index a caret pins: the first component that is not zero, or the one
    behind the last. -/
def caretIndex (v : Version) : Nat := v.main.findIdx (· ≠ .zero)

end Operator

namespace Comparator

/-- Both ends of the interval that starts at a version and is pinned at an
    index. -/
def pinned (v : Version) (index : Nat) : Except Refusal (List Comparator) := do
  let upper ← v.upperBound index
  return [⟨.ge, v.lowerBound⟩, ⟨.lt, upper⟩]

/-- The comparators a word stands for. -/
def ofWord (word : Text) : Except Refusal (List Comparator) :=
  if word.isEmpty || word == ['*'] then .ok [⟨.ge, .zero⟩]
  else
    let (operator, body) := Operator.read word
    if body.isEmpty then .error (.missingVersion word)
    else do
      let v ← Version.parse body
      match operator with
      | .relation .ge => return [⟨.ge, v.lowerBound⟩]
      | .relation r => return [⟨r, v⟩]
      | .tilde => pinned v (Operator.tildeIndex v)
      | .caret => pinned v (Operator.caretIndex v)

end Comparator

end PackageIndex
