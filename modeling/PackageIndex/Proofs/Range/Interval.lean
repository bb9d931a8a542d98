import PackageIndex.Proofs.Range.Composition
import PackageIndex.Proofs.Version.Preorder

/-!
# Alternatives Are Intervals

An alternative of a range may hold any number of tests, written in any order and
with any operators, and still what passes them has no holes: with two versions
that pass, every version between them passes as well (`accepts_between`).

It is enough to see this of a single test. A test for being less, or not greater,
is passed further down, and one for being greater, or not less, further up
(`accepts_down`, `accepts_up`). A test for equality is passed in neither
direction, but a version between two that are equal to the bound is equal to it
too. No test looks at anything but the order, and what the bound is made of does
not matter, so a tilde, a caret and a bound with an empty pre-release are covered
like any other.

Pre-releases that are not asked for are the only exception, and they are kept out
as such and not for where they stand (`accepts_interval`).

## Theorems

* `accepts_down`, `accepts_up`: Tests for one direction.
* `Comparator.accepts_between`: A test is passed between versions that pass it.
* `accepts_interval`: What passes an alternative has no holes.
-/

namespace PackageIndex

variable {u v w : Version}

namespace Comparator

/-- A test against an upper bound is passed further down. -/
theorem accepts_down {c : Comparator} (hrelation : c.relation = .lt ∨ c.relation = .le)
    (hvw : (compare v w).isLE = true) (hw : c.accepts w = true) : c.accepts v = true := by
  rcases c with ⟨relation, bound⟩
  rcases hrelation with rfl | rfl
  · have hlt : compare w bound = .lt := Ordering.isLT_iff_eq_lt.mp hw
    exact Ordering.isLT_iff_eq_lt.mpr (Std.TransCmp.lt_of_isLE_of_lt hvw hlt)
  · exact Std.TransCmp.isLE_trans hvw hw

/-- A test against a lower bound is passed further up. -/
theorem accepts_up {c : Comparator} (hrelation : c.relation = .gt ∨ c.relation = .ge)
    (huv : (compare u v).isLE = true) (hu : c.accepts u = true) : c.accepts v = true := by
  rcases c with ⟨relation, bound⟩
  rcases hrelation with rfl | rfl
  · have hlt : compare bound u = .lt := Std.OrientedCmp.lt_of_gt (Ordering.isGT_iff_eq_gt.mp hu)
    exact Ordering.isGT_iff_eq_gt.mpr
      (Std.OrientedCmp.gt_of_lt (Std.TransCmp.lt_of_lt_of_isLE hlt huv))
  · have hle : (compare bound u).isLE = true := Std.OrientedCmp.isLE_of_isGE hu
    exact Std.OrientedCmp.isGE_of_isLE (Std.TransCmp.isLE_trans hle huv)

/-- A test that two versions pass is passed by every version between them. -/
theorem accepts_between {c : Comparator} (huv : (compare u v).isLE = true)
    (hvw : (compare v w).isLE = true) (hu : c.accepts u = true) (hw : c.accepts w = true) :
    c.accepts v = true := by
  rcases c with ⟨relation, bound⟩
  cases relation with
  | eq =>
      -- The bound stands on both sides of the version.
      have hlower : compare u bound = .eq := Ordering.isEq_iff_eq_eq.mp hu
      have hupper : compare w bound = .eq := Ordering.isEq_iff_eq_eq.mp hw
      have hle : (compare v bound).isLE = true := by rwa [← Std.TransCmp.congr_right hupper]
      have hge : (compare bound v).isLE = true := by rwa [← Std.TransCmp.congr_left hlower]
      exact Ordering.isEq_iff_eq_eq.mpr (Std.OrientedCmp.isLE_antisymm hle hge)
  | lt => exact accepts_down (Or.inl rfl) hvw hw
  | le => exact accepts_down (Or.inr rfl) hvw hw
  | gt => exact accepts_up (Or.inl rfl) huv hu
  | ge => exact accepts_up (Or.inr rfl) huv hu

end Comparator

namespace Alternative

/-- What passes an alternative has no holes. If two versions pass it with
    pre-releases let in everywhere, so does every version between them, and under
    any setting that version is kept out only as a pre-release that is not asked
    for. -/
theorem accepts_interval (a : Alternative) (u v w : Version) (huv : (compare u v).isLE = true)
    (hvw : (compare v w).isLE = true) (hu : a.accepts u (some true) = true)
    (hw : a.accepts w (some true) = true) :
    a.accepts v (some true) = true ∧
      ∀ setting, a.accepts v setting = (!v.isPrerelease || setting.getD a.optsIn) := by
  rw [accepts_some_true, List.all_eq_true] at hu hw
  have hall : a.comparators.all (·.accepts v) = true :=
    List.all_eq_true.mpr fun c hc => Comparator.accepts_between huv hvw (hu c hc) (hw c hc)
  refine ⟨(accepts_some_true a v).trans hall, fun setting => ?_⟩
  rw [accepts, hall, Bool.and_true, admits]

/-- Of several tests, some of which ask for less than others, all are passed in
    between, and a pre-release in between is let in where it is asked for. -/
theorem accepts_interval_words : ∃ a, parse "^1.2 >1.0-rc <=2-x".toList false = .ok a ∧
    a.accepts ⟨"1.2-a".toList⟩ (some true) = true ∧
      a.accepts ⟨"1.z".toList⟩ (some true) = true ∧
      a.accepts ⟨"1.10-rc".toList⟩ (some true) = true ∧
      a.accepts ⟨"1.10-rc".toList⟩ none = false := by
  obtain ⟨a, ha⟩ : ∃ a, a = (⟨[⟨.ge, ⟨"1.2-".toList⟩⟩, ⟨.lt, ⟨"2-".toList⟩⟩,
      ⟨.gt, ⟨"1.0-rc".toList⟩⟩, ⟨.le, ⟨"2-x".toList⟩⟩], false⟩ : Alternative) := ⟨_, rfl⟩
  have hlower : a.accepts ⟨"1.2-a".toList⟩ (some true) = true := by
    rw [ha]
    decide +kernel
  have hupper : a.accepts ⟨"1.z".toList⟩ (some true) = true := by
    rw [ha]
    decide +kernel
  have hbetween := accepts_interval a ⟨"1.2-a".toList⟩ ⟨"1.10-rc".toList⟩ ⟨"1.z".toList⟩
    (by decide +kernel) (by decide +kernel) hlower hupper
  refine ⟨a, by rw [ha]; rfl, hlower, hupper, hbetween.1, ?_⟩
  rw [hbetween.2 none, ha]
  decide +kernel

end Alternative

end PackageIndex
