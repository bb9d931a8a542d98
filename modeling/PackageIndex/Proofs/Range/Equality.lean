import PackageIndex.Proofs.Version.Gap
import PackageIndex.Range.Basic

/-!
# Equal Versions in Ranges

Versions are equal when neither comes before the other, and equal versions may
well differ in their texts: `1.0` is `1`, and `01-a.0` is `1-a`. The order does
not see the difference, but not all that is done with versions goes through the
order. Whether a version is a pre-release is asked of its parts, counting up a
component looks at the main part with all its zeros, and the lower end of a
range is made from the text as it stands.

All of it respects equality nonetheless. What equal versions have in common is
said by `compare_eq_eq_iff`: the components that are significant, and the parts
that are there at all. Components are read padded wherever they are counted up,
and padding does not see zeros at the end (`padded_congr`). So equal versions
have the very same upper ends, and their bumps differ in zeros at the end only: an
upper end and the bump are the edges of one gap (`edges_ends`).

## Main definitions

* `Version.Alike`: Outcomes that are equal versions or both refused.

## Theorems

* `compare_eq_eq_iff`: What equal versions have in common.
* `padded_congr`, `isPrerelease_congr`: They have the same components, and are
  pre-releases alike.
* `upperBound_congr`, `bump_congr`, `lowerBound_congr`: What is made of equal
  versions is equal.
* `respects_equality`: Ranges and bounds do not tell equal versions apart.
-/

namespace PackageIndex

namespace Version

/-- Two outcomes that are alike: both are refused, or both are versions and
    these are equal. -/
inductive Alike : Except Refusal Version → Except Refusal Version → Prop
  | refused (first second : Refusal) : Alike (.error first) (.error second)
  | equal {v w : Version} (h : (v == w) = true) : Alike (.ok v) (.ok w)

variable {v w : Version}

theorem compare_eq_eq_iff (v w : Version) :
    compare v w = .eq ↔ significant v.main = significant w.main ∧
      comparePre v.pre? w.pre? = .eq ∧ compareBuild v.build? w.build? = .eq := by
  rw [compare_eq_nested, Ordering.then_eq_eq, Ordering.then_eq_eq, and_assoc,
    Std.LawfulEqOrd.compare_eq_iff_eq]

/-- Equal versions have the same components, a missing one being zero. -/
theorem padded_congr (h : compare v w = .eq) : v.padded = w.padded := by
  funext index
  rw [padded, ← padded_significant, ((compare_eq_eq_iff v w).mp h).1, padded_significant, padded]

/-- A part is there in both of two equal versions or in neither. -/
theorem isSome_congr (h : compare v w = .eq) :
    v.pre?.isSome = w.pre?.isSome ∧ v.build?.isSome = w.build?.isSome := by
  rcases (compare_eq_eq_iff v w).mp h with ⟨-, hpre, hbuild⟩
  constructor
  · cases hv : v.pre? <;> cases hw : w.pre? <;> simp [hv, hw, comparePre] at hpre ⊢
  · cases hv : v.build? <;> cases hw : w.build? <;> simp [hv, hw, compareBuild] at hbuild ⊢

theorem isPrerelease_congr (h : compare v w = .eq) : v.isPrerelease = w.isPrerelease :=
  (isSome_congr h).1

/-- Counting up gives the same pieces for equal versions, or is refused for
    both. -/
theorem counted_congr (h : compare v w = .eq) (index : Nat) :
    (∃ front, v.counted index = .ok front ∧ w.counted index = .ok front) ∨
      ∃ first second, v.counted index = .error first ∧ w.counted index = .error second := by
  -- Successors and texts are those of the padded components.
  have hpadded := padded_congr h
  have htext : v.componentText = w.componentText := by
    funext i
    exact congrArg Component.write (congrFun hpadded i)
  unfold counted
  rw [successor?_eq, successor?_eq, hpadded, htext]
  cases (w.padded index).successor? with
  | none => exact Or.inr ⟨_, _, rfl, rfl⟩
  | some n => exact Or.inl ⟨_, rfl, rfl⟩

theorem upperBound_congr (h : compare v w = .eq) (index : Nat) :
    Alike (v.upperBound index) (w.upperBound index) := by
  unfold upperBound
  rcases counted_congr h index with ⟨front, hv, hw⟩ | ⟨first, second, hv, hw⟩
  · -- Even the texts of the ends are the same.
    rw [hv, hw]
    exact .equal ((beq_iff_compare _ _).mpr Std.ReflCmp.compare_self)
  · rw [hv, hw]
    exact .refused first second

theorem bump_congr (h : compare v w = .eq) (index : Nat) :
    Alike (v.bump index) (w.bump index) := by
  rcases counted_congr h index with ⟨front, hv, hw⟩ | ⟨first, second, hv, hw⟩
  · obtain ⟨upper, hupper, hupper'⟩ : ∃ upper, v.upperBound index = .ok upper ∧
        w.upperBound index = .ok upper := ⟨_, by rw [upperBound, hv]; rfl, by rw [upperBound, hw]; rfl⟩
    obtain ⟨a, ha⟩ : ∃ a, v.bump index = .ok a := ⟨_, by rw [bump, hv]; rfl⟩
    obtain ⟨b, hb⟩ : ∃ b, w.bump index = .ok b := ⟨_, by rw [bump, hw]; rfl⟩
    -- Both bumps are the release at the other edge of the same gap.
    have hedges := edges_ends hupper ha
    have hedges' := edges_ends hupper' hb
    rw [ha, hb]
    refine .equal ((beq_iff_compare a b).mpr ((compare_eq_eq_iff a b).mpr ⟨?_, ?_, ?_⟩))
    · exact hedges.main.symm.trans hedges'.main
    · rw [hedges.pre, hedges'.pre]
      rfl
    · rw [hedges.build, hedges'.build]
      rfl
  · unfold bump
    rw [hv, hw]
    exact .refused first second

theorem lowerBound_congr (h : compare v w = .eq) : compare v.lowerBound w.lowerBound = .eq := by
  have hsome := isSome_congr h
  by_cases hv : v.pre? ≠ none ∨ v.build? ≠ none
  · -- Both stand for themselves, or both get the empty pre-release.
    have hw : w.pre? ≠ none ∨ w.build? ≠ none := by
      simpa only [Option.ne_none_iff_isSome, hsome.1, hsome.2] using hv
    rwa [lowerBound_eq_self hv, lowerBound_eq_self hw]
  · have hw : ¬(w.pre? ≠ none ∨ w.build? ≠ none) := by
      simpa only [Option.ne_none_iff_isSome, hsome.1, hsome.2] using hv
    rw [not_or, not_not, not_not] at hv hw
    have hedges := edges_lowerBound hv.1 hv.2
    have hedges' := edges_lowerBound hw.1 hw.2
    refine (compare_eq_eq_iff _ _).mpr ⟨?_, ?_, ?_⟩
    · rw [hedges.main, hedges'.main, ((compare_eq_eq_iff v w).mp h).1]
    · rw [hedges.marker, hedges'.marker]
      rfl
    · rw [hedges.lower_build, hedges'.lower_build]
      rfl

end Version

namespace Range

theorem accepts_congr {v w : Version} (h : (v == w) = true) (c : Comparator) :
    c.accepts v = c.accepts w := by
  rw [Comparator.accepts, Comparator.accepts, (Version.compare_congr h c.bound).1]

theorem contains_congr {v w : Version} (h : (v == w) = true) (r : Range) (setting : Option Bool) :
    r.contains v setting = r.contains w setting := by
  have hpre := Version.isPrerelease_congr ((Version.beq_iff_compare v w).mp h)
  simp only [contains, Alternative.accepts, Alternative.admits, hpre, accepts_congr h]

/-- Equal versions are not told apart. A range holds both or neither, what is
    made of one as a bump or as an end of a range is equal to what is made of
    the other, and as bounds of a test they accept the same versions. -/
theorem respects_equality (v w : Version) (h : (v == w) = true) :
    (∀ (r : Range) (setting : Option Bool), r.contains v setting = r.contains w setting) ∧
      (∀ index, Version.Alike (v.bump index) (w.bump index)) ∧
      (∀ index, Version.Alike (v.upperBound index) (w.upperBound index)) ∧
      (v.lowerBound == w.lowerBound) = true ∧
      ∀ (relation : Relation) (u : Version),
        Comparator.accepts ⟨relation, v⟩ u = Comparator.accepts ⟨relation, w⟩ u := by
  have heq := (Version.beq_iff_compare v w).mp h
  refine ⟨contains_congr h, Version.bump_congr heq, Version.upperBound_congr heq,
    (Version.beq_iff_compare _ _).mpr (Version.lowerBound_congr heq), fun relation u => ?_⟩
  rw [Comparator.accepts, Comparator.accepts, (Version.compare_congr h u).2]

/-- Leading zeros and zeros at the end of any part make no difference. -/
theorem respects_equality_zeros :
    ((⟨"01.0-a.0".toList⟩ : Version) == ⟨"1-a".toList⟩) = true ∧
      Version.Alike (Version.bump ⟨"01.0-a.0".toList⟩ 0) (Version.bump ⟨"1-a".toList⟩ 0) := by
  have h : ((⟨"01.0-a.0".toList⟩ : Version) == ⟨"1-a".toList⟩) = true := by decide +kernel
  exact ⟨h, (respects_equality _ _ h).2.1 0⟩

end Range

end PackageIndex
