import PackageIndex.Text.Numeral

/-!
# Version Components

A version is dotted components, and a component is a number when it is digits
that fit sixty-four bits and text otherwise. A longer run of digits is text
too, and keeps all its digits.

Numbers compare by value and texts by code points. Across the two kinds the
empty text comes first, then every number, then every other text. That is what
makes the order total: comparing spellings across kinds would put `"1a"` below
`"3"` and above `"10"`, and so between numbers in the wrong order. Components
that compare equal are the same component.

## Main definitions

* `Component`: A number or a text.
* `Component.ofText`: The component a piece of a version stands for.
* `Component.write`: A component's text, a number without leading zeros.
* `significant`: Components without the zeros at the end.

## Theorems

* `ofText_write_number`: A number's text stands for that number.
* `significant_eq_nil_iff`: Only zeros have nothing significant.
-/

namespace PackageIndex

/-- One dotted component of a version. -/
inductive Component where
  /-- Digits that fit sixty-four bits, by their value. -/
  | number (value : UInt64)
  /-- Anything else, as written. -/
  | text (spelling : Text)
  deriving DecidableEq

namespace Component

/-- The component a piece of a version stands for. -/
def ofText (s : Text) : Component :=
  match Numeral.read? s with
  | some n => if h : n < UInt64.size then .number (UInt64.ofNatLT n h) else .text s
  | none => .text s

/-- A component's text. A number has no leading zeros, whatever it was read
    from. -/
def write : Component → Text
  | .number value => Numeral.write value.toNat
  | .text spelling => spelling

/-- The number zero, which is what a missing component counts as. -/
def zero : Component := .number 0

/-- The kinds in ascending order: empty text, numbers, other text. -/
def rank : Component → Nat
  | .text [] => 0
  | .number _ => 1
  | .text (_ :: _) => 2

/-- The value of a number, by which numbers compare. -/
def value : Component → Nat
  | .number value => value.toNat
  | .text _ => 0

/-- The spelling of a text, by which texts compare. -/
def spelling : Component → Text
  | .number _ => []
  | .text spelling => spelling

instance : Ord Component where
  compare := compareLex (compareOn rank) (compareLex (compareOn value) (compareOn spelling))

instance : Std.TransOrd Component :=
  inferInstanceAs (Std.TransCmp
    (compareLex (compareOn rank) (compareLex (compareOn value) (compareOn spelling))))

instance : Std.LawfulEqOrd Component where
  eq_of_compare {a b} h := by
    obtain ⟨hr, h⟩ := compareLex_eq_eq.1 h
    obtain ⟨hv, hs⟩ := compareLex_eq_eq.1 h
    have hr : a.rank = b.rank := Std.LawfulEqOrd.eq_of_compare hr
    have hv : a.value = b.value := Std.LawfulEqOrd.eq_of_compare hv
    have hs : a.spelling = b.spelling := Std.LawfulEqOrd.eq_of_compare hs
    cases a with
    | number m =>
      cases b with
      | number n => rw [UInt64.toNat_inj.1 hv]
      | text t => cases t <;> simp [rank] at hr
    | text s =>
      cases b with
      | number n => cases s <;> simp [rank] at hr
      | text t => exact congrArg text hs

/-- A number's text stands for that number. -/
theorem ofText_write_number (n : UInt64) : ofText (write (.number n)) = .number n := by
  have h : n.toNat < UInt64.size := n.toNat_lt
  simp [ofText, write, Numeral.read?_write, h]

end Component

/-- Components without the zeros at the end, which do not count. -/
def significant : List Component → List Component
  | [] => []
  | c :: rest =>
    match significant rest with
    | [] => if c = .zero then [] else [c]
    | d :: others => c :: d :: others

/-- Only zeros have nothing significant. -/
theorem significant_eq_nil_iff (cs : List Component) :
    significant cs = [] ↔ ∀ c ∈ cs, c = .zero := by
  induction cs with
  | nil => simp [significant]
  | cons c rest ih =>
    rw [significant]
    split
    · rename_i h
      by_cases hc : c = .zero
      · simpa [hc] using ih.1 h
      · simp [hc]
    · rename_i d others h
      have : ¬ ∀ c ∈ rest, c = .zero := fun hall => by simp [ih.2 hall] at h
      simpa using fun _ => this

end PackageIndex
