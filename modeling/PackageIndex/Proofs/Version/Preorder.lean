import PackageIndex.Version.Nesting

/-!
# The Laws of the Version Order

Whatever texts three versions have, they compare as the members of a total
preorder do, and equality is what the preorder does not tell apart. A version
may therefore be replaced by an equal one in any comparison, and sorting and
picking the greatest do not depend on which of several equal versions they
meet first.

The laws are those of lists of chains. What the order itself is can be seen
part by part, with main parts first, then pre-releases, then builds, and it is
the same order in both readings (`compare_eq_nested`). So the laws hold for the
rules about absent parts and the empty pre-release as they stand.

## Theorems

* `compare_swap`: Comparing the other way round gives the reverse.
* `beq_iff_compare`: Equality is comparing equal.
* `compare_congr`: Equal versions compare alike with any other.
* `compare_preorder`: The laws together.
-/

namespace PackageIndex

namespace Version

/-- Comparing the other way round gives the reverse. -/
theorem compare_swap (v w : Version) : compare v w = (compare w v).swap :=
  Std.OrientedOrd.eq_swap

/-- Equality is comparing equal. -/
theorem beq_iff_compare (v w : Version) : (v == w) = true ↔ compare v w = .eq := by
  change (compare v w == .eq) = true ↔ _
  exact beq_iff_eq

/-- Equal versions compare alike with any other. -/
theorem compare_congr {v w : Version} (h : (v == w) = true) (u : Version) :
    compare v u = compare w u ∧ compare u v = compare u w := by
  rw [beq_iff_compare] at h
  exact ⟨Std.TransCmp.congr_left h, Std.TransCmp.congr_right h⟩

/-- The order of versions is a total preorder, and equality is what it does not
    tell apart. Part by part it compares main parts without the zeros at their
    end, then pre-release parts, then builds. -/
theorem compare_preorder :
    (∀ v w : Version, compare v w = (compare w v).swap) ∧
    (∀ u v w : Version, (compare u v).isLE = true → (compare v w).isLE = true →
      (compare u w).isLE = true ∧
        (compare u v = .lt ∨ compare v w = .lt → compare u w = .lt)) ∧
    (∀ v w : Version, (v == w) = true ↔ compare v w = .eq) ∧
    (∀ v : Version, (v == v) = true) ∧
    (∀ v w : Version, (v == w) = true → (w == v) = true) ∧
    (∀ u v w : Version, (u == v) = true → (v == w) = true → (u == w) = true) ∧
    (∀ v w : Version, (v == w) = true →
      ∀ u, compare v u = compare w u ∧ compare u v = compare u w) ∧
    (∀ v w : Version, compare v w =
      ((compare (significant v.main) (significant w.main)).then
        (comparePre v.pre? w.pre?)).then (compareBuild v.build? w.build?)) := by
  refine ⟨compare_swap, ?_, beq_iff_compare, ?_, ?_, ?_, fun v w => compare_congr,
    compare_eq_nested⟩
  · intro u v w huv hvw
    refine ⟨Std.TransCmp.isLE_trans huv hvw, fun hstrict => ?_⟩
    rcases hstrict with hlt | hlt
    · exact Std.TransCmp.lt_of_lt_of_isLE hlt hvw
    · exact Std.TransCmp.lt_of_isLE_of_lt huv hlt
  · intro v
    rw [beq_iff_compare]
    exact Std.ReflCmp.compare_self
  · intro v w h
    rw [beq_iff_compare] at h ⊢
    rw [compare_swap, h]
    rfl
  · intro u v w huv hvw
    rw [beq_iff_compare] at huv hvw ⊢
    exact Std.TransCmp.eq_trans huv hvw

/-- A pre-release, its release spelled with a zero more, and a build of it. -/
theorem compare_preorder_builds :
    compare (⟨"1-a".toList⟩ : Version) ⟨"1.0".toList⟩ = .lt ∧
      compare (⟨"1-a".toList⟩ : Version) ⟨"1+b".toList⟩ = .lt := by
  have hfirst : compare (⟨"1-a".toList⟩ : Version) ⟨"1.0".toList⟩ = .lt := by decide +kernel
  have hsecond : compare (⟨"1.0".toList⟩ : Version) ⟨"1+b".toList⟩ = .lt := by decide +kernel
  obtain ⟨-, htrans, -⟩ := compare_preorder
  exact ⟨hfirst, (htrans _ _ _ (by rw [hfirst]; rfl) (by rw [hsecond]; rfl)).2 (Or.inl hfirst)⟩

end Version

end PackageIndex
