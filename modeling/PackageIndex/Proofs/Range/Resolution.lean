import PackageIndex.Proofs.Range.Best

/-!
# Resolving a Range

To resolve a range is to pick one of several candidates, and what is picked can be
described without the search. It is the candidate at a place of its own
(`BestAt`), and there is no more than one such place. It is also the last one
when the candidates in the range are sorted (`getLast?_sort`): sorting leaves
equal versions as they stood, so the last of the greatest comes last of all.

Two descriptions of the same candidate are the same candidate, since there is
only one last greatest version among several (`IsLastGreatest.unique`).

Which candidates are given is one thing, and how they are given is another. In
another order an equal version is picked, which may be spelled differently, and
candidates outside of the range may be put anywhere among the others.

## Main definitions

* `Range.BestAt`: The candidate at a place is the one to pick.
* `Range.Added`: Candidates with others among them that lie outside of a range.

## Theorems

* `IsLastGreatest.unique`: There is only one last greatest version.
* `getLast?_sort`: The greatest version comes last when versions are sorted.
* `best?_eq_some_iff`: What is picked is known by its place.
* `best?_alike`: The same candidates in another order resolve to an equal version.
* `resolves`: The laws together.
-/

namespace PackageIndex

namespace Version

variable {v w : Version} {versions : List Version}

/-- Of two versions one is not greater than the other. -/
theorem isLE_total (v w : Version) : ((compare v w).isLE || (compare w v).isLE) = true := by
  rw [compare_swap w v]
  cases compare v w <;> rfl

namespace IsLastGreatest

theorem mem (h : v.IsLastGreatest versions) : v ∈ versions := by
  rcases h with ⟨front, back, rfl, -, -⟩
  exact List.mem_append_right front List.mem_cons_self

/-- If all that is behind a version is less, and nothing in front of another one is
    greater, then the other one is not behind it. -/
theorem eq_of_behind {front between back rest : List Version}
    (hrest : ∀ x ∈ rest, compare x v = .lt)
    (hfront : ∀ x ∈ front ++ between, (compare x w).isLE = true)
    (h : v :: rest = between ++ w :: back) : v = w := by
  cases between with
  | nil => exact (List.cons.inj h).1
  | cons x between =>
      rcases List.cons.inj h with ⟨rfl, rfl⟩
      have hlt := hrest w (List.mem_append_right between List.mem_cons_self)
      have hle := hfront v (List.mem_append_right front List.mem_cons_self)
      rw [compare_swap, hlt] at hle
      exact absurd hle (by decide)

/-- There is only one last greatest version. -/
theorem unique (hv : v.IsLastGreatest versions) (hw : w.IsLastGreatest versions) : v = w := by
  rcases hv with ⟨front, back, rfl, hfront, hback⟩
  rcases hw with ⟨front', back', hversions, hfront', hback'⟩
  rcases List.append_eq_append_iff.mp hversions with ⟨between, rfl, h⟩ | ⟨between, rfl, h⟩
  · exact eq_of_behind hback hfront' h
  · exact (eq_of_behind hback' hfront h).symm

end IsLastGreatest

/-- The version that comes last when versions are sorted is the last of the
    greatest. -/
theorem isLastGreatest_of_sort {front : List Version} (h : sort versions = front ++ [v]) :
    v.IsLastGreatest versions := by
  induction versions generalizing front v with
  | nil => exact absurd h (by simp [sort])
  | cons u rest ih =>
      -- One version more is put in its place among the others, behind all that are less.
      obtain ⟨before, behind, hsort, hrest, hbefore⟩ :=
        List.mergeSort_cons (fun _ _ _ => Std.TransCmp.isLE_trans) isLE_total u rest
      have hpairs := List.pairwise_mergeSort (fun _ _ _ => Std.TransCmp.isLE_trans) isLE_total
        (u :: rest)
      rcases List.eq_nil_or_concat behind with rfl | ⟨between, w, rfl⟩
      · have hlast : front ++ [v] = before ++ [u] := h.symm.trans hsort
        rcases List.append_inj' hlast rfl with ⟨-, hv⟩
        rw [(List.cons.inj hv).1]
        refine ⟨[], rest, rfl, fun x hx => absurd hx List.not_mem_nil, fun x hx => ?_⟩
        have hmem : x ∈ before := by
          rw [← List.append_nil before, ← hrest]
          exact List.mem_mergeSort.mpr hx
        exact lt_of_not_isLE (by simpa using hbefore x hmem)
      · -- The last of the others is still the last.
        rw [List.concat_eq_append] at hsort hrest
        have hlast : front ++ [v] = (before ++ u :: between) ++ [w] := by
          rw [List.append_assoc, List.cons_append, ← hsort]
          exact h.symm
        have hothers : sort rest = (before ++ between) ++ [w] := by
          rw [List.append_assoc]
          exact hrest
        rcases List.append_inj' hlast rfl with ⟨-, hv⟩
        rw [(List.cons.inj hv).1]
        rw [hsort] at hpairs
        exact IsLastGreatest.extend (ih hothers)
          ((List.pairwise_cons.mp (List.pairwise_append.mp hpairs).2.1).1 w (by simp))

/-- The greatest of several versions, the last one among equals, comes last when
    they are sorted. -/
theorem getLast?_sort (versions : List Version) :
    (sort versions).getLast? = greatest? versions := by
  have hlength : (sort versions).length = versions.length := List.length_mergeSort versions
  cases hlast : (sort versions).getLast? with
  | none =>
      rw [List.getLast?_eq_none_iff.mp hlast] at hlength
      rw [List.eq_nil_of_length_eq_zero hlength.symm]
      rfl
  | some v =>
      obtain ⟨front, hsort⟩ := List.getLast?_eq_some_iff.mp hlast
      have hv := isLastGreatest_of_sort hsort
      cases hgreatest : greatest? versions with
      | none =>
          rw [(greatest?_eq_none_iff versions).mp hgreatest] at hv
          exact absurd hv.mem List.not_mem_nil
      | some w => rw [hv.unique (greatest?_isLastGreatest hgreatest)]

end Version

namespace Range

/-- The candidate at a place is the one to pick: it lies in the range, no candidate
    that does is greater, and those behind it that do are less. -/
def BestAt (r : Range) (setting : Option Bool) (versions : List Version) (k : Nat) (v : Version) :
    Prop :=
  versions[k]? = some v ∧ r.contains v setting = true ∧
    ∀ (j : Nat) (w : Version), versions[j]? = some w → r.contains w setting = true →
      (compare w v).isLE = true ∧ (k < j → compare w v = .lt)

/-- Candidates with others put among them, none of which lies in a range. -/
inductive Added (r : Range) (setting : Option Bool) : List Version → List Version → Prop
  | nil : Added r setting [] []
  | kept {versions more : List Version} (v : Version) :
      Added r setting versions more → Added r setting (v :: versions) (v :: more)
  | outside {versions more : List Version} (v : Version) :
      r.contains v setting = false → Added r setting versions more →
      Added r setting versions (v :: more)

variable {r : Range} {setting : Option Bool} {versions others : List Version} {v w : Version}

/-- There is no more than one place for the candidate to pick. -/
theorem BestAt.unique {k j : Nat} (hv : r.BestAt setting versions k v)
    (hw : r.BestAt setting versions j w) : v = w := by
  rcases hv with ⟨hk, hcontains, hbest⟩
  rcases hw with ⟨hj, hcontains', hbest'⟩
  have hle := hbest j w hj hcontains'
  have hle' := hbest' k v hk hcontains
  rcases Nat.lt_trichotomy k j with hlt | rfl | hlt
  · rw [Version.compare_swap, hle.2 hlt] at hle'
    exact absurd hle'.1 (by decide)
  · exact Option.some.inj (hk.symm.trans hj)
  · rw [Version.compare_swap, hle'.2 hlt] at hle
    exact absurd hle.1 (by decide)

theorem best?_eq_some_iff :
    r.best? versions setting = some v ↔ ∃ k, r.BestAt setting versions k v := by
  refine ⟨best?_position, fun ⟨k, hv⟩ => ?_⟩
  cases hbest : r.best? versions setting with
  | none =>
      have houtside := best?_eq_none_iff.mp hbest v (List.mem_of_getElem? hv.1)
      exact absurd (houtside.symm.trans hv.2.1) Bool.false_ne_true
  | some w =>
      rcases best?_position hbest with ⟨j, hw⟩
      rw [hv.unique hw]

/-- The candidate that is picked is not less than any that is given in another
    order and lies in the range. -/
theorem best?_isLE (hmem : ∀ u, u ∈ versions ↔ u ∈ others) (hv : r.best? versions setting = some v)
    (hw : r.best? others setting = some w) : (compare w v).isLE = true := by
  rcases best?_position hv with ⟨k, -, -, hbest⟩
  rcases best?_position hw with ⟨j, hj, hcontains, -⟩
  have hw' := (hmem w).mpr (List.mem_of_getElem? hj)
  obtain ⟨i, hi⟩ := List.mem_iff_getElem?.mp hw'
  exact (hbest i w hi hcontains).1

/-- The same candidates in another order resolve to an equal version, or none of
    them lies in the range. -/
theorem best?_alike (hmem : ∀ u, u ∈ versions ↔ u ∈ others) :
    Option.Rel (fun v w => (v == w) = true) (r.best? versions setting)
      (r.best? others setting) := by
  have hnone : r.best? versions setting = none ↔ r.best? others setting = none := by
    rw [best?_eq_none_iff, best?_eq_none_iff]
    simp only [hmem]
  cases hv : r.best? versions setting with
  | none =>
      rw [hnone.mp hv]
      exact .none
  | some v =>
      cases hw : r.best? others setting with
      | none => exact absurd (hnone.mpr hw) (by rw [hv]; simp)
      | some w =>
          have hle := best?_isLE (fun u => (hmem u).symm) hw hv
          have hge := best?_isLE hmem hv hw
          exact .some ((Version.beq_iff_compare v w).mpr (Std.OrientedCmp.isLE_antisymm hle hge))

/-- What is put among the candidates from outside of the range is passed over. -/
theorem satisfying_of_added (h : r.Added setting versions others) :
    r.satisfying others setting = r.satisfying versions setting := by
  unfold satisfying
  induction h with
  | nil => rfl
  | kept v _ ih => rw [List.filter_cons, List.filter_cons, ih]
  | outside v hv _ ih => rw [List.filter_cons_of_neg (by rw [hv]; exact Bool.false_ne_true), ih]

/-- Resolving a range picks nothing if no candidate lies in it, and else the last
    among the greatest that do, which comes last when these are sorted. In another
    order the candidates resolve to an equal version, and candidates outside of
    the range make no difference. -/
theorem resolves (r : Range) (setting : Option Bool) (versions : List Version) :
    (r.best? versions setting = none ↔ ∀ v ∈ versions, r.contains v setting = false) ∧
      (∀ v, r.best? versions setting = some v ↔ ∃ k, r.BestAt setting versions k v) ∧
      r.best? versions setting = (Version.sort (r.satisfying versions setting)).getLast? ∧
      (∀ others, versions.Perm others →
        Option.Rel (fun v w => (v == w) = true) (r.best? versions setting)
          (r.best? others setting)) ∧
      ∀ more, r.Added setting versions more → r.best? more setting = r.best? versions setting := by
  refine ⟨best?_eq_none_iff, fun v => best?_eq_some_iff, ?_, fun others hperm => ?_,
    fun more hadded => ?_⟩
  · rw [Version.getLast?_sort, best?]
  · exact best?_alike fun u => hperm.mem_iff
  · rw [best?, satisfying_of_added hadded, best?]

/-- Two spellings of one version are both the greatest, and the one given last is
    picked. A greater pre-release and a version beyond the range make no
    difference. -/
theorem resolves_spellings : ∃ r, parse "^1.0".toList = .ok r ∧
    r.best? [⟨"1.9".toList⟩, ⟨"1.9.0".toList⟩] none = some ⟨"1.9.0".toList⟩ ∧
      r.best? [⟨"1.9.0".toList⟩, ⟨"1.9".toList⟩] none = some ⟨"1.9".toList⟩ ∧
      ((⟨"1.9.0".toList⟩ : Version) == ⟨"1.9".toList⟩) = true ∧
      r.best? [⟨"3".toList⟩, ⟨"1.9".toList⟩, ⟨"1.9.0".toList⟩, ⟨"1.10-rc".toList⟩] none =
        some ⟨"1.9.0".toList⟩ := by
  obtain ⟨r, hr⟩ : ∃ r, r = (⟨"^1.0".toList,
      [⟨[⟨.ge, ⟨"1.0-".toList⟩⟩, ⟨.lt, ⟨"2-".toList⟩⟩], false⟩]⟩ : Range) := ⟨_, rfl⟩
  have hfirst : r.best? [⟨"1.9".toList⟩, ⟨"1.9.0".toList⟩] none = some ⟨"1.9.0".toList⟩ := by
    rw [hr]
    decide +kernel
  have hsecond : r.best? [⟨"1.9.0".toList⟩, ⟨"1.9".toList⟩] none = some ⟨"1.9".toList⟩ := by
    rw [hr]
    decide +kernel
  obtain ⟨-, -, -, hperm, hadded⟩ := resolves r none [⟨"1.9".toList⟩, ⟨"1.9.0".toList⟩]
  refine ⟨r, by rw [hr]; rfl, hfirst, hsecond, ?_, ?_⟩
  · have halike := hperm _ (List.Perm.swap _ _ [])
    rw [hfirst, hsecond] at halike
    cases halike with
    | some h => exact h
  · rw [hadded _ (.outside _ (by rw [hr]; decide +kernel) (.kept _ (.kept _ (.outside _
      (by rw [hr]; decide +kernel) .nil)))), hfirst]

end Range

end PackageIndex
