import PackageIndex.Proofs.Range.Equality
import PackageIndex.Proofs.Version.Decomposition

/-!
# What a Version Feeds to a Hash

A hash must not tell equal versions apart, and versions are equal that differ in
their texts. Equality goes through the order, which asks for one thing that a
hash is not fed: whether a pre-release is the empty text. In the direction that
matters this does no harm. Where both pre-releases are empty they are the same
version, and where neither is they compare as versions. So the parts of equal
versions are equal, at any depth (`inner_congr`).

Nothing that is fed is lost on the way. The values say how many components
follow and whether a part does, so a version can be read off the front of them
(`fed_append_inj`), and the same values are fed exactly by versions that have the
same significant components at every depth (`fed_eq_iff`). Equal versions are of
this kind, but not all that are of this kind are equal. The pre-release of `1-.0`
has nothing significant in it but the empty text, and still it is not the empty
pre-release, which is that of `1-`.

## Main definitions

* `Version.Matching`: The same significant components at every depth.
* `Version.fedPart`: What a part feeds, or the lack of it.

## Theorems

* `rel_of_comparePre`, `rel_of_compareBuild`: Parts that compare equal are equal.
* `inner_congr`: The parts of equal versions are equal.
* `matching_of_equal`: Equal versions have the same significant components.
* `fed_append_inj`: Where the values of a version end can be seen from them.
* `fed_eq_iff`: Which versions feed the same values.
* `fed_respects_equality`: Equal versions feed the same values at every depth.
-/

namespace PackageIndex

/-- What does not tell related values apart is the same for both of two values
    that are related or missing. -/
theorem map_eq_of_rel {α β : Type} {r : α → α → Prop} {a b : Option α} (h : Option.Rel r a b)
    {f : α → β} (hf : ∀ x y, r x y → f x = f y) : a.map f = b.map f := by
  cases h with
  | none => rfl
  | some h => exact congrArg some (hf _ _ h)

namespace Version

/-- Pre-releases that compare equal are equal versions. The converse fails, for
    the empty one may be equal to another as a version. -/
theorem rel_of_comparePre {pre pre' : Option Version} (h : comparePre pre pre' = .eq) :
    Option.Rel (compare · · = .eq) pre pre' := by
  cases pre <;> cases pre'
  case none.none => exact .none
  case none.some q => exact absurd h (by simp [comparePre])
  case some.none p => exact absurd h (by simp [comparePre])
  case some.some p q =>
    obtain ⟨_ | ⟨c, s⟩⟩ := p <;> obtain ⟨_ | ⟨d, t⟩⟩ := q
    -- Both are empty, or one is, or neither.
    · exact .some Std.ReflCmp.compare_self
    · exact absurd h (by simp [comparePre])
    · exact absurd h (by simp [comparePre])
    · exact .some h

theorem rel_of_compareBuild {build build' : Option Version} (h : compareBuild build build' = .eq) :
    Option.Rel (compare · · = .eq) build build' := by
  cases build <;> cases build'
  case none.none => exact .none
  case none.some c => exact absurd h (by simp [compareBuild])
  case some.none b => exact absurd h (by simp [compareBuild])
  case some.some b c => exact .some h

theorem part_congr {v w : Version} (h : compare v w = .eq) (branch : Branch) :
    Option.Rel (compare · · = .eq) (v.part? branch) (w.part? branch) := by
  rcases (compare_eq_eq_iff v w).mp h with ⟨-, hpre, hbuild⟩
  cases branch with
  | pre => exact rel_of_comparePre hpre
  | build => exact rel_of_compareBuild hbuild

/-- The parts of equal versions are equal, at any depth. -/
theorem inner_congr {v w : Version} (h : compare v w = .eq) (path : List Branch) :
    Option.Rel (compare · · = .eq) (v.inner? path) (w.inner? path) := by
  induction path generalizing v w with
  | nil => exact .some h
  | cons branch path ih =>
      rw [inner?, inner?]
      have hpart := part_congr h branch
      generalize v.part? branch = part at hpart
      generalize w.part? branch = part' at hpart
      cases hpart with
      | none => exact .none
      | some h => exact ih h

/-- Versions that have the same parts, and in each of them the same components
    up to zeros at the end. -/
def Matching (v w : Version) : Prop :=
  ∀ path, (v.inner? path).map (significant ·.main) = (w.inner? path).map (significant ·.main)

theorem matching_of_equal {v w : Version} (h : compare v w = .eq) : Matching v w := by
  intro path
  exact map_eq_of_rel (inner_congr h path) fun p q hpq => ((compare_eq_eq_iff p q).mp hpq).1

/-- Versions match if their components do and their parts. -/
theorem matching_iff (v w : Version) : Matching v w ↔ significant v.main = significant w.main ∧
    ∀ branch, Option.Rel Matching (v.part? branch) (w.part? branch) := by
  constructor
  · intro h
    refine ⟨Option.some.inj (h []), fun branch => ?_⟩
    cases hv : v.part? branch <;> cases hw : w.part? branch
    case none.none => exact .none
    case none.some q => simpa [inner?, hv, hw] using h [branch]
    case some.none p => simpa [inner?, hv, hw] using h [branch]
    case some.some p q =>
      refine .some fun path => ?_
      simpa [inner?, hv, hw] using h (branch :: path)
  · rintro ⟨hmain, hparts⟩ path
    cases path with
    | nil => exact congrArg some hmain
    | cons branch path =>
        rw [inner?, inner?]
        have hpart := hparts branch
        generalize v.part? branch = part at hpart
        generalize w.part? branch = part' at hpart
        cases hpart with
        | none => rfl
        | some h => exact h path

/-- What a part feeds, or the lack of it. -/
def fedPart : Option Version → List Fed
  | none => [.absent]
  | some p => .present :: p.fed

/-- A version feeds its components, and then its parts. -/
theorem fed_eq (v : Version) : v.fed = .length (significant v.main).length ::
    ((significant v.main).map .component ++
      (fedPart (v.part? .pre) ++ fedPart (v.part? .build))) := by
  rw [fed, part?, part?, ← List.append_assoc, ← List.cons_append, ← List.cons_append]
  congr 1
  · congr 1
    split <;> rename_i h <;> rw [h] <;> rfl
  · split <;> rename_i h <;> rw [h] <;> rfl

theorem fedPart_congr {part part' : Option Version} (h : Option.Rel Matching part part')
    (ih : ∀ p ∈ part, ∀ q, Matching p q → p.fed = q.fed) : fedPart part = fedPart part' := by
  cases h with
  | none => rfl
  | some h => rw [fedPart, fedPart, ih _ rfl _ h]

theorem fed_congr {v w : Version} (h : Matching v w) : v.fed = w.fed := by
  induction v using parts_induction generalizing w with
  | step v ih =>
      rcases (matching_iff v w).mp h with ⟨hmain, hparts⟩
      rw [fed_eq, fed_eq w, hmain, fedPart_congr (hparts .pre) fun p hp _ => ih .pre p hp,
        fedPart_congr (hparts .build) fun b hb _ => ih .build b hb]

theorem fedPart_append_inj {part part' : Option Version} {rest rest' : List Fed}
    (ih : ∀ p ∈ part, ∀ q rest rest', p.fed ++ rest = q.fed ++ rest' →
      Matching p q ∧ rest = rest')
    (h : fedPart part ++ rest = fedPart part' ++ rest') :
    Option.Rel Matching part part' ∧ rest = rest' := by
  cases part <;> cases part' <;> injection h with hfirst hrest
  case none.none => exact ⟨.none, hrest⟩
  case none.some q => exact absurd hfirst (by simp)
  case some.none p => exact absurd hfirst (by simp)
  case some.some p q =>
    rcases ih p rfl q rest rest' hrest with ⟨hmatch, hrest⟩
    exact ⟨.some hmatch, hrest⟩

/-- Where the values of a version end can be seen from them, whatever is fed
    behind. -/
theorem fed_append_inj {v w : Version} {rest rest' : List Fed}
    (h : v.fed ++ rest = w.fed ++ rest') : Matching v w ∧ rest = rest' := by
  induction v using parts_induction generalizing w rest rest' with
  | step v ih =>
      rw [fed_eq, fed_eq w, List.cons_append, List.cons_append] at h
      injection h with hlength h
      simp only [List.append_assoc] at h
      -- As many components follow on either side, so it is the same ones.
      have hcount : ((significant v.main).map Fed.component).length =
          ((significant w.main).map Fed.component).length := by
        rw [List.length_map, List.length_map, Fed.length.inj hlength]
      rcases List.append_inj h hcount with ⟨hmain, h⟩
      have hmain := (List.map_inj_right fun _ _ => Fed.component.inj).mp hmain
      rcases fedPart_append_inj (fun p hp _ _ _ => ih .pre p hp) h with ⟨hpre, h⟩
      rcases fedPart_append_inj (fun b hb _ _ _ => ih .build b hb) h with ⟨hbuild, h⟩
      refine ⟨(matching_iff v w).mpr ⟨hmain, fun branch => ?_⟩, h⟩
      cases branch with
      | pre => exact hpre
      | build => exact hbuild

/-- The same values are fed by versions with the same significant components at
    every depth, and only by them. -/
theorem fed_eq_iff (v w : Version) : v.fed = w.fed ↔ Matching v w :=
  ⟨fun h => (fed_append_inj (congrArg (· ++ []) h)).1, fed_congr⟩

/-- Two versions feed the same values that are not equal, since the pre-release
    of only one of them is empty. -/
example : fed ⟨"1-".toList⟩ = fed ⟨"1-.0".toList⟩ ∧
    ((⟨"1-".toList⟩ : Version) == ⟨"1-.0".toList⟩) = false := by
  decide +kernel

/-- Equal versions feed the same values, and so do their parts at any depth, of
    which they have the same. -/
theorem fed_respects_equality {v w : Version} (h : (v == w) = true) :
    v.fed = w.fed ∧ ∀ path, (v.inner? path).map fed = (w.inner? path).map fed := by
  rw [beq_iff_compare] at h
  refine ⟨fed_congr (matching_of_equal h), fun path => ?_⟩
  exact map_eq_of_rel (inner_congr h path) fun p q hpq => fed_congr (matching_of_equal hpq)

/-- Zeros differ in the main part, the pre-release and the build. -/
theorem fed_respects_equality_zeros :
    ((⟨"1-a.0+b".toList⟩ : Version) == ⟨"01.0-a+b.00".toList⟩) = true ∧
      fed ⟨"1-a.0+b".toList⟩ = fed ⟨"01.0-a+b.00".toList⟩ := by
  have h : ((⟨"1-a.0+b".toList⟩ : Version) == ⟨"01.0-a+b.00".toList⟩) = true := by decide +kernel
  exact ⟨h, (fed_respects_equality h).1⟩

end Version

end PackageIndex
