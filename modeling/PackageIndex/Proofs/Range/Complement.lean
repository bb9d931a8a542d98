import PackageIndex.Proofs.Range.Words
import PackageIndex.Proofs.Version.Gap

/-!
# Where Two Bounds Meet

A range that starts at a version and a range that ends there leave nothing out.
They are made from different bounds, though. The inclusive lower end of `1.2` is
`1.2-`, so that the pre-releases of `1.2` may come in, while the exclusive upper
end is `1.2` as it stands, and its pre-releases are below that. So both ranges
hold them, and nothing else is in both (`bounds_meet`). A version that has a
part is its own lower end, and then the ranges have nothing in common.

Releases never notice. For them a range and the other are exact opposites,
whatever is said about pre-releases, and to be at least a version is to be that
version or above it.

## Main definitions

* `Range.Meet`: How a range from a version on and a range up to it share out all
  versions.

## Theorems

* `contains_at_least_iff`, `contains_below_iff`: What lies in the two ranges.
* `contains_either_iff`: What is a version or above it.
* `bounds_meet`: Nothing is left out, and only pre-releases lie in both.
-/

namespace PackageIndex

namespace Range

/-- A range from a version on and a range up to it. Every version lies in one of
    them. Both hold the pre-releases of the version, if that has no parts, and
    nothing else. Of releases each holds what the other does not. -/
structure Meet (v : Version) (atLeast below : Range) : Prop where
  cover : ∀ w, atLeast.contains w (some true) = true ∨ below.contains w (some true) = true
  overlap_iff : ∀ w, atLeast.contains w (some true) = true ∧ below.contains w (some true) = true ↔
    v.pre? = none ∧ v.build? = none ∧ w.isPrerelease = true ∧
      significant w.main = significant v.main
  opposite : ∀ w setting, w.isPrerelease = false →
    atLeast.contains w setting = !below.contains w setting

theorem contains_at_least_iff (text : Text) (v w : Version) (setting : Option Bool) :
    contains ⟨text, [⟨[⟨.ge, v.lowerBound⟩], false⟩]⟩ w setting = true ↔
      (w.isPrerelease = true → setting = some true) ∧ compare w v.lowerBound ≠ .lt := by
  rw [contains_single_iff, List.forall_mem_singleton, accepts_ge_iff]

theorem contains_below_iff (text : Text) (v w : Version) (setting : Option Bool) :
    contains ⟨text, [⟨[⟨.lt, v⟩], false⟩]⟩ w setting = true ↔
      (w.isPrerelease = true → setting = some true) ∧ compare w v = .lt := by
  rw [contains_single_iff, List.forall_mem_singleton, accepts_lt_iff]

theorem contains_either_iff (text : Text) (v w : Version) (setting : Option Bool) :
    contains ⟨text, [⟨[⟨.eq, v⟩], false⟩, ⟨[⟨.gt, v⟩], false⟩]⟩ w setting = true ↔
      (w.isPrerelease = true → setting = some true) ∧ compare w v ≠ .lt := by
  have hunites := (unites_append ⟨text, [⟨[⟨.eq, v⟩], false⟩]⟩ ⟨text, [⟨[⟨.gt, v⟩], false⟩]⟩
    text).contains w setting
  change contains ⟨text, [⟨[⟨.eq, v⟩], false⟩, ⟨[⟨.gt, v⟩], false⟩]⟩ w setting = _ at hunites
  rw [hunites, Bool.or_eq_true, contains_single_iff, contains_single_iff,
    List.forall_mem_singleton, List.forall_mem_singleton, ← and_or_left, accepts_eq_or_gt_iff]

/-- A release is at least the lower end of a version if it is at least the
    version. -/
theorem release_ge_lowerBound_iff {v w : Version} (hw : w.isPrerelease = false) :
    compare w v.lowerBound ≠ .lt ↔ compare w v ≠ .lt := by
  constructor
  · -- Between the two there are only pre-releases.
    intro hge hlt
    rw [((Version.between_lowerBound_iff v w).mp ⟨hge, hlt⟩).2.2.1] at hw
    exact Bool.noConfusion hw
  · exact mt Version.lt_of_lt_lowerBound

theorem meet (atLeast below : Text) (v : Version) :
    Meet v ⟨atLeast, [⟨[⟨.ge, v.lowerBound⟩], false⟩]⟩ ⟨below, [⟨[⟨.lt, v⟩], false⟩]⟩ := by
  refine ⟨fun w => ?_, fun w => ?_, fun w setting hw => ?_⟩
  · rw [contains_at_least_iff, contains_below_iff]
    by_cases hlt : compare w v = .lt
    · exact Or.inr ⟨fun _ => rfl, hlt⟩
    · exact Or.inl ⟨fun _ => rfl, mt Version.lt_of_lt_lowerBound hlt⟩
  · rw [contains_at_least_iff, contains_below_iff, ← Version.between_lowerBound_iff]
    simp only [implies_true, true_and]
  · have hrelease : w.isPrerelease = true → setting = some true := by
      rw [hw]
      exact fun h => Bool.noConfusion h
    rw [Bool.eq_not_iff, ne_eq, Bool.eq_iff_iff, contains_at_least_iff, contains_below_iff,
      and_iff_right hrelease, and_iff_right hrelease, release_ge_lowerBound_iff hw]
    exact not_iff_self

/-- A range from a version on and a range up to it leave nothing out, and only
    pre-releases of the version lie in both. Of releases they are opposites, and
    a release is in the first if it is the version or above it. -/
theorem bounds_meet (s : Text) (hword : Word s) (hequals : s.head? ≠ some '=') :
    ∃ atLeast below either, parse ('>' :: '=' :: s) = .ok atLeast ∧ parse ('<' :: s) = .ok below ∧
      parse ('=' :: s ++ [' ', '|', '|', ' '] ++ '>' :: s) = .ok either ∧
      Meet ⟨s⟩ atLeast below ∧
      ∀ (w : Version) (setting : Option Bool), w.isPrerelease = false →
        atLeast.contains w setting = either.contains w setting := by
  have hge := ofWord_ge hword.ne_nil
  have hlt := ofWord_lt hword.ne_nil hequals
  have hgt := ofWord_gt hword.ne_nil hequals
  have heq := ofWord_eq hword.ne_nil
  refine ⟨_, _, _, ?_, ?_, parse_either (hword.signed (by decide)) (hword.signed (by decide)) heq hgt,
    meet ('>' :: '=' :: s) ('<' :: s) ⟨s⟩, fun w setting hw => ?_⟩
  · rw [parse_word ((hword.signed (by decide)).signed (by decide)), hge]
    rfl
  · rw [parse_word (hword.signed (by decide)), hlt]
    rfl
  · rw [Bool.eq_iff_iff, contains_at_least_iff, contains_either_iff, release_ge_lowerBound_iff hw]

/-- A pre-release that ends the bounds lies in both ranges, and a version with a
    build is its own lower end. -/
theorem bounds_meet_prerelease :
    (∃ atLeast below, parse ">=1.2".toList = .ok atLeast ∧ parse "<1.2".toList = .ok below ∧
      atLeast.contains ⟨"1.2.0-rc.1".toList⟩ (some true) = true ∧
      below.contains ⟨"1.2.0-rc.1".toList⟩ (some true) = true) ∧
    ∃ atLeast below, parse ">=1.2+b".toList = .ok atLeast ∧ parse "<1.2+b".toList = .ok below ∧
      ∀ w : Version, atLeast.contains w (some true) = true →
        below.contains w (some true) = false := by
  have hplain : Word "1.2".toList :=
    ⟨⟨Text.no_blank_of_all (by decide +kernel), by decide +kernel, by decide +kernel⟩,
      by decide +kernel, by decide +kernel⟩
  have hbuild : Word "1.2+b".toList :=
    ⟨⟨Text.no_blank_of_all (by decide +kernel), by decide +kernel, by decide +kernel⟩,
      by decide +kernel, by decide +kernel⟩
  constructor
  · obtain ⟨atLeast, below, either, hge, hlt, -, hmeet, -⟩ :=
      bounds_meet "1.2".toList hplain (by decide)
    exact ⟨atLeast, below, hge, hlt,
      (hmeet.overlap_iff ⟨"1.2.0-rc.1".toList⟩).mpr ⟨rfl, rfl, rfl, by decide +kernel⟩⟩
  · obtain ⟨atLeast, below, either, hge, hlt, -, hmeet, -⟩ :=
      bounds_meet "1.2+b".toList hbuild (by decide)
    refine ⟨atLeast, below, hge, hlt, fun w hw => Bool.eq_false_iff.mpr fun hboth => ?_⟩
    exact absurd ((hmeet.overlap_iff w).mp ⟨hw, hboth⟩).2.1 (by decide +kernel)

end Range

end PackageIndex
