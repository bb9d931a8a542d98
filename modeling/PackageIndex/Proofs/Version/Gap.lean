import PackageIndex.Proofs.Version.Bound
import PackageIndex.Proofs.Version.Preorder

/-!
# The Gap Below a Release

A release and the version with its main part and the empty pre-release are the
edges of a gap, and what lies in the gap are the pre-releases of the release, all
of them and nothing else (`Edges.between_iff`). How the main part is spelled does
not matter, and neither do builds: a build is less significant than a
pre-release, and the lower edge of the gap has none.

The ends of ranges are at such edges. Counting a component up for an upper end
gives the lower edge, counting it up for a bump gives the release, with zeros
behind the component that do not count. So the two are apart by a gap, and the
version that they were made from is below both (`ends_tight`). The inclusive
lower end of a version without parts is the lower edge of the gap below that
version; with parts there is no gap, and the version is its own lower end
(`between_lowerBound_iff`).

## Main definitions

* `Version.Edges`: The two edges of a gap.
* `Version.Ends`: What an upper end and a bump of a version are.

## Theorems

* `compare_release_eq_lt_iff`: What is below a release.
* `Edges.between_iff`: What lies in the gap below a release.
* `between_lowerBound_iff`: What lies between a lower end and its version.
* `lt_upperBound`: A version is below its upper ends.
* `ends_tight`: When a component can be counted up, and what that leads to.
-/

namespace PackageIndex

namespace Version

theorem isLE_swap_iff (v w : Version) : (compare v w).isLE = true ↔ compare w v ≠ .lt := by
  rw [compare_swap v w]
  cases compare w v <;> decide

/-- Next to no pre-release and no build only a pre-release is less. -/
theorem parts_eq_lt_iff (w : Version) :
    (comparePre w.pre? none).then (compareBuild w.build? none) = .lt ↔ w.isPrerelease = true := by
  unfold isPrerelease
  cases w.pre? with
  | none =>
      cases w.build? with
      | none => decide
      | some b => simp [comparePre, compareBuild]
  | some p => simp [comparePre]

/-- Below a release are the versions with a lesser main part, and its own
    pre-releases. -/
theorem compare_release_eq_lt_iff {b : Version} (hpre : b.pre? = none) (hbuild : b.build? = none)
    (w : Version) :
    compare w b = .lt ↔ compare (significant w.main) (significant b.main) = .lt ∨
      significant w.main = significant b.main ∧ w.isPrerelease = true := by
  rw [compare_eq_nested, hpre, hbuild, Ordering.then_assoc, Ordering.then_eq_lt, parts_eq_lt_iff,
    Std.LawfulEqOrd.compare_eq_iff_eq]

/-- The two edges of a gap: a release, and a version with its main part, the empty
    pre-release and no build. -/
structure Edges (lower release : Version) : Prop where
  marker : lower.pre? = some ⟨[]⟩
  lower_build : lower.build? = none
  pre : release.pre? = none
  build : release.build? = none
  main : significant lower.main = significant release.main

/-- Below the release is what is below the lower edge, and its own pre-releases. -/
theorem Edges.lt_release_iff {lower release : Version} (h : Edges lower release) (w : Version) :
    compare w release = .lt ↔ compare w lower = .lt ∨
      w.isPrerelease = true ∧ significant w.main = significant release.main := by
  rw [compare_release_eq_lt_iff h.pre h.build, compare_marker_eq_lt_iff h.marker h.lower_build,
    h.main, and_comm]

/-- Nothing that is below the lower edge has the main part of the release. -/
theorem Edges.not_lt_lower {lower release : Version} (h : Edges lower release) {w : Version}
    (hmain : significant w.main = significant release.main) : compare w lower ≠ .lt := by
  rw [ne_eq, compare_marker_eq_lt_iff h.marker h.lower_build, h.main, hmain,
    Std.ReflOrd.compare_self]
  simp

/-- Between the two edges of a gap are the pre-releases of the release, and
    nothing else. -/
theorem Edges.between_iff {lower release : Version} (h : Edges lower release) (w : Version) :
    compare w lower ≠ .lt ∧ compare w release = .lt ↔
      w.isPrerelease = true ∧ significant w.main = significant release.main := by
  rw [h.lt_release_iff]
  constructor
  · rintro ⟨hge, hlt | hgap⟩
    · exact absurd hlt hge
    · exact hgap
  · intro hgap
    exact ⟨h.not_lt_lower hgap.2, Or.inr hgap⟩

/-- The inclusive lower end of a version without parts is the lower edge of the
    gap below it. -/
theorem edges_lowerBound {v : Version} (hpre : v.pre? = none) (hbuild : v.build? = none) :
    Edges v.lowerBound v := by
  rcases lowerBound_parts hpre hbuild with ⟨hmain, hmarker, hplain⟩
  exact ⟨hmarker, hplain, hpre, hbuild, by rw [hmain]⟩

/-- What is below the inclusive lower end of a version is below the version. -/
theorem lt_of_lt_lowerBound {v w : Version} (h : compare w v.lowerBound = .lt) :
    compare w v = .lt := by
  by_cases hparts : v.pre? ≠ none ∨ v.build? ≠ none
  · rwa [lowerBound_eq_self hparts] at h
  · rw [not_or, not_not, not_not] at hparts
    exact ((edges_lowerBound hparts.1 hparts.2).lt_release_iff w).mpr (Or.inl h)

/-- What is below a version and not below its inclusive lower end are its
    pre-releases, if the version has no parts. -/
theorem between_lowerBound_iff (v w : Version) :
    compare w v.lowerBound ≠ .lt ∧ compare w v = .lt ↔
      v.pre? = none ∧ v.build? = none ∧ w.isPrerelease = true ∧
        significant w.main = significant v.main := by
  by_cases hparts : v.pre? ≠ none ∨ v.build? ≠ none
  · -- There is nothing between a version and itself.
    rw [lowerBound_eq_self hparts]
    refine iff_of_false (fun h => h.1 h.2) fun h => ?_
    exact hparts.elim (fun hpre => hpre h.1) fun hbuild => hbuild h.2.1
  · rw [not_or, not_not, not_not] at hparts
    rw [(edges_lowerBound hparts.1 hparts.2).between_iff]
    simp only [hparts, true_and]

variable {v upper bumped : Version} {index : Nat}

/-- Nothing at the end of the main part of an upper end is zero. -/
theorem significant_upperBound (h : v.upperBound index = .ok upper) :
    significant upper.main = upper.main := by
  rcases upperBound_parts h with ⟨n, next, -, hnext, hmain, -⟩
  have hne : Component.number next ≠ .zero := by
    intro hzero
    rw [Component.number.inj hzero] at hnext
    exact absurd hnext (Nat.succ_ne_zero _).symm
  rw [hmain, significant_append_singleton _ hne]

/-- A version is below its upper ends. -/
theorem lt_upperBound (h : v.upperBound index = .ok upper) : compare v upper = .lt := by
  have hsignificant := significant_upperBound h
  rcases upperBound_parts h with ⟨n, next, hn, hnext, hmain, hpre, hbuild⟩
  -- Zeros at the end are not compared, and the padded components do not change
  -- without them.
  have hpadded : v.padded = PackageIndex.padded (significant v.main) :=
    funext fun k => (padded_significant v.main k).symm
  rw [hpadded] at hn hmain
  rw [compare_marker_eq_lt_iff hpre hbuild, hsignificant, hmain]
  exact compare_counted_eq_lt hn hnext fun _ _ => rfl

/-- A bump is the upper end at the same index without the pre-release, up to
    zeros behind it. -/
theorem bump_main (hupper : v.upperBound index = .ok upper) (hbump : v.bump index = .ok bumped) :
    bumped.main = upper.main ++ List.replicate (v.main.length - (index + 1)) .zero := by
  rcases upperBound_parts hupper with ⟨n, next, hn, hnext, hmain, -⟩
  rcases bump_parts hbump with ⟨m, other, hm, hother, hmain', -⟩
  -- Both count the same component up.
  have hsame : other = next := by
    rw [hn] at hm
    rw [← UInt64.toNat_inj, hother, hnext, Component.number.inj hm]
  rw [hmain', hmain, hsame]

/-- An upper end and the bump at the same index are the edges of a gap. -/
theorem edges_ends (hupper : v.upperBound index = .ok upper) (hbump : v.bump index = .ok bumped) :
    Edges upper bumped := by
  rcases upperBound_parts hupper with ⟨-, -, -, -, -, hmarker, hplain⟩
  rcases bump_parts hbump with ⟨-, -, -, -, -, hpre, hbuild⟩
  refine ⟨hmarker, hplain, hpre, hbuild, ?_⟩
  rw [bump_main hupper hbump, significant_append_zeros]

/-- What can be counted up has an upper end and a bump. -/
theorem exists_ends (h : ¬v.Uncountable index) :
    ∃ upper bumped, v.upperBound index = .ok upper ∧ v.bump index = .ok bumped := by
  cases hcounted : v.counted index with
  | error refusal => exact absurd ((counted_eq_error_iff v index refusal).mp hcounted).1 h
  | ok front =>
      obtain ⟨upper, hupper⟩ : ∃ upper, v.upperBound index = .ok upper :=
        ⟨_, by rw [upperBound, hcounted]; rfl⟩
      obtain ⟨bumped, hbump⟩ : ∃ bumped, v.bump index = .ok bumped :=
        ⟨_, by rw [bump, hcounted]; rfl⟩
      exact ⟨upper, bumped, hupper, hbump⟩

/-- The upper end of a version at an index and its bump there. Both have the
    components of the version in front of the index, a missing one being zero,
    and one more than the component at the index. The bump has zeros behind it,
    so that it is no shorter than the version, and no parts, the upper end has
    the empty pre-release. The version is below the upper end, and that is below
    the bump. What is below the upper end is decided by main parts alone, and
    between the two are the pre-releases of the bump. -/
structure Ends (v : Version) (index : Nat) (upper bumped : Version) : Prop where
  counted : ∃ n : UInt64, v.padded index = .number n ∧ (n + 1).toNat = n.toNat + 1 ∧
    upper.main = (List.range index).map v.padded ++ [.number (n + 1)]
  bumped_main : bumped.main =
    upper.main ++ List.replicate (v.main.length - (index + 1)) .zero
  bumped_length : bumped.main.length = max v.main.length (index + 1)
  upper_parts : upper.pre? = some ⟨[]⟩ ∧ upper.build? = none
  bumped_parts : bumped.pre? = none ∧ bumped.build? = none
  lt_upper : compare v upper = .lt
  upper_lt_bumped : compare upper bumped = .lt
  lt_upper_iff : ∀ w : Version, compare w upper = .lt ↔
    compare (significant w.main) (significant upper.main) = .lt
  between_iff : ∀ w : Version, (compare upper w).isLE = true ∧ compare w bumped = .lt ↔
    w.isPrerelease = true ∧ significant w.main = significant bumped.main

theorem ends_of_ok (hupper : v.upperBound index = .ok upper) (hbump : v.bump index = .ok bumped) :
    Ends v index upper bumped := by
  have hexact := upperBound_exact hupper
  have hedges := edges_ends hupper hbump
  have hself : upper.isPrerelease = true := by rw [isPrerelease, hedges.marker, Option.isSome_some]
  refine ⟨hexact, bump_main hupper hbump, ?_, ⟨hedges.marker, hedges.lower_build⟩,
    ⟨hedges.pre, hedges.build⟩, lt_upperBound hupper, ?_,
    compare_marker_eq_lt_iff hedges.marker hedges.lower_build, fun w => ?_⟩
  · -- The zeros make up for what stood behind the index.
    rcases hexact with ⟨n, -, -, hmain⟩
    rw [bump_main hupper hbump, hmain, List.length_append, List.length_append, List.length_map,
      List.length_range, List.length_singleton, List.length_replicate]
    omega
  · -- The upper end is itself the least pre-release of the bump.
    exact (hedges.lt_release_iff upper).mpr (Or.inr ⟨hself, hedges.main⟩)
  · rw [isLE_swap_iff, hedges.between_iff]

/-- A component can be counted up unless it is text or the greatest number, and
    otherwise an upper end and a bump are refused alike. They are as close to
    each other as releases and pre-releases allow. -/
theorem ends_tight (v : Version) (index : Nat) :
    (∀ refusal, v.upperBound index = .error refusal ↔
      v.Uncountable index ∧ refusal = .notNumeric v.text index) ∧
    (∀ refusal, v.bump index = .error refusal ↔
      v.Uncountable index ∧ refusal = .notNumeric v.text index) ∧
    (¬v.Uncountable index → ∃ upper bumped, v.upperBound index = .ok upper ∧
      v.bump index = .ok bumped ∧ Ends v index upper bumped) := by
  refine ⟨upperBound_eq_error_iff v index, bump_eq_error_iff v index, fun h => ?_⟩
  rcases exists_ends h with ⟨upper, bumped, hupper, hbump⟩
  exact ⟨upper, bumped, hupper, hbump, ends_of_ok hupper hbump⟩

/-- Text in front of the component and behind it makes no difference, parts make
    none, and a pre-release with a build lies in the gap. -/
theorem ends_tight_text : ∃ upper bumped,
    upperBound ⟨"01.x.2.z-rc+b".toList⟩ 2 = .ok upper ∧
      bump ⟨"01.x.2.z-rc+b".toList⟩ 2 = .ok bumped ∧ bumped.text = "1.x.3.0".toList ∧
      (compare upper ⟨"1.x.3-a+c".toList⟩).isLE = true ∧
      compare ⟨"1.x.3-a+c".toList⟩ bumped = .lt := by
  have hcomponent : component? ⟨"01.x.2.z-rc+b".toList⟩ 2 = some (.number 2) := by decide +kernel
  have hcountable : ¬Uncountable ⟨"01.x.2.z-rc+b".toList⟩ 2 := by
    rw [Uncountable, hcomponent]
    rintro (⟨spelling, h⟩ | h)
    · exact absurd h (by simp)
    · exact absurd h (by decide)
  rcases (ends_tight _ _).2.2 hcountable with ⟨upper, bumped, hupper, hbump, hends⟩
  have hbumped : bumped = ⟨"1.x.3.0".toList⟩ := (Except.ok.inj hbump).symm
  have hgap := (hends.between_iff ⟨"1.x.3-a+c".toList⟩).mpr ⟨rfl, by rw [hbumped]; decide +kernel⟩
  exact ⟨upper, bumped, hupper, hbump, by rw [hbumped], hgap⟩

end Version

end PackageIndex
