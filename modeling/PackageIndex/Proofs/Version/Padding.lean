import Mathlib.Data.Nat.Find
import PackageIndex.Proofs.Version.Bound

/-!
# Comparing With Zeros Behind the Shorter

A component that is missing counts as zero, and so one would compare main parts
by putting zeros behind the shorter one and going through both from the front
(`comparePadded`). The order does not do that. It takes the zeros at the end away
and lets a main part that goes on be the greater one.

Both readings come down to the first place where the padded components differ
(`Differ`). If each main part still has a significant component there, these two
decide in either reading. If one of them has ended, the other goes on, and is
the greater one in the order; padded, it is the greater one if its component is
above zero. Only the empty text is not. So the readings agree unless a main part
goes on with an empty text where the other one has ended (`EndsAtEmpty`), and
then they are opposite: `1.` sorts above `1`, and padded it would sort below.

## Main definitions

* `comparePadded`: How lists compare with a filler behind the shorter.
* `Differ`: The first place where padded main parts differ.
* `EndsAtEmpty`: A main part ends where another goes on with an empty text.
* `Version.Bare`: A version that has only a main part.

## Theorems

* `comparePadded_of_before`: Padded lists compare from the front.
* `same_or_differ`: There is a first place to differ, or none at all.
* `length_significant_le_iff`: Where the significant components end.
* `compare_significant_eq_iff`: When taking zeros away is as good as putting them
  there.
* `compare_padded_iff`: The same, for versions.
-/

namespace PackageIndex

section Padded

variable {α : Type} [Ord α] (filler : α) {as bs : List α}

/-- How two lists compare with a filler put behind the shorter. -/
def comparePadded (as bs : List α) : Ordering :=
  compare (as.rightpad bs.length filler) (bs.rightpad as.length filler)

theorem comparePadded_swap [Std.OrientedOrd α] (as bs : List α) :
    comparePadded filler as bs = (comparePadded filler bs as).swap :=
  Std.OrientedOrd.eq_swap

variable [Std.ReflOrd α]

/-- Padded lists compare by what is in front, and then by what is behind it. -/
theorem comparePadded_cons (as bs : List α) :
    comparePadded filler as bs =
      (compare (as[0]?.getD filler) (bs[0]?.getD filler)).then
        (comparePadded filler as.tail bs.tail) := by
  unfold comparePadded
  cases as with
  | nil =>
      cases bs with
      | nil => simp [Std.ReflOrd.compare_self]
      | cons b bs => simp [List.rightpad, List.replicate_succ, List.compare_cons_cons]
  | cons a as =>
      cases bs with
      | nil => simp [List.rightpad, List.replicate_succ, List.compare_cons_cons]
      | cons b bs => simp [List.rightpad, List.compare_cons_cons]

/-- Padded lists with a common beginning compare by what follows it. -/
theorem comparePadded_drop {n : Nat} (h : ∀ k < n, as[k]?.getD filler = bs[k]?.getD filler) :
    comparePadded filler as bs = comparePadded filler (as.drop n) (bs.drop n) := by
  induction n generalizing as bs with
  | zero => rw [List.drop_zero, List.drop_zero]
  | succ n ih =>
      rw [comparePadded_cons, h 0 (Nat.succ_pos n), Std.ReflOrd.compare_self, Ordering.eq_then,
        ← List.drop_tail, ← List.drop_tail]
      refine ih fun k hk => ?_
      rw [List.getElem?_tail, List.getElem?_tail]
      exact h (k + 1) (Nat.succ_lt_succ hk)

/-- Padded lists with a common beginning compare by the next two, and then by
    what is behind these. -/
theorem comparePadded_of_before {n : Nat}
    (h : ∀ k < n, as[k]?.getD filler = bs[k]?.getD filler) :
    comparePadded filler as bs = (compare (as[n]?.getD filler) (bs[n]?.getD filler)).then
      (comparePadded filler (as.drop (n + 1)) (bs.drop (n + 1))) := by
  rw [comparePadded_drop filler h, comparePadded_cons, List.tail_drop, List.tail_drop,
    List.getElem?_drop, List.getElem?_drop, Nat.add_zero]

theorem comparePadded_of_same (h : ∀ k : Nat, as[k]?.getD filler = bs[k]?.getD filler) :
    comparePadded filler as bs = .eq := by
  have hlong : ∀ cs : List α, cs.length ≤ as.length + bs.length →
      cs.drop (as.length + bs.length) = [] := fun cs => List.drop_eq_nil_of_le
  rw [comparePadded_drop filler (n := as.length + bs.length) fun k _ => h k, hlong as (by omega),
    hlong bs (by omega)]
  rfl

end Padded

/-- Two main parts first differ at an index, if a missing component is zero. -/
structure Differ (as bs : List Component) (index : Nat) : Prop where
  before : ∀ k < index, padded as k = padded bs k
  here : padded as index ≠ padded bs index

/-- A main part has ended, but for zeros, where another one goes on with an empty
    text. In front of that they are the same. -/
def EndsAtEmpty (as bs : List Component) : Prop :=
  ∃ index, (∀ k < index, padded as k = padded bs k) ∧
    (∀ k, index ≤ k → padded as k = .zero) ∧ padded bs index = .text []

variable {as bs : List Component} {index : Nat}

theorem Differ.symm (h : Differ as bs index) : Differ bs as index :=
  ⟨fun k hk => (h.before k hk).symm, h.here.symm⟩

/-- Main parts are the same, or there is a first place where they differ. -/
theorem same_or_differ (as bs : List Component) :
    (∀ k, padded as k = padded bs k) ∨ ∃ index, Differ as bs index := by
  by_cases h : ∃ k, padded as k ≠ padded bs k
  · refine Or.inr ⟨Nat.find h, fun k hk => ?_, Nat.find_spec h⟩
    exact not_not.mp (Nat.find_min h hk)
  · exact Or.inl fun k => not_not.mp fun hk => h ⟨k, hk⟩

/-- The last significant component is not zero. -/
theorem ne_zero_of_significant {cs front : List Component} {c : Component}
    (h : significant cs = front ++ [c]) : c ≠ .zero := by
  induction cs generalizing front with
  | nil => exact absurd h (by simp [significant])
  | cons d rest ih =>
      rw [significant] at h
      split at h
      · by_cases hd : d = .zero
        · rw [if_pos hd] at h
          exact absurd h (by simp)
        · rw [if_neg hd] at h
          rcases List.append_eq_singleton_iff.mp h.symm with ⟨-, hc⟩ | ⟨-, hc⟩
          · rw [(List.cons.inj hc).1]
            exact hd
          · exact absurd hc (by simp)
      · rename_i e others hrest
        -- What is in front of the others is not the last one.
        cases front with
        | nil => exact absurd (List.cons.inj h).2 (by simp)
        | cons f front => exact ih (hrest.trans (List.cons.inj h).2)

/-- The significant components end where there are only zeros left. -/
theorem length_significant_le_iff (cs : List Component) (index : Nat) :
    (significant cs).length ≤ index ↔ ∀ k, index ≤ k → padded cs k = .zero := by
  constructor
  · intro h k hk
    rw [← padded_significant, padded_of_length_le (h.trans hk)]
  · intro h
    rcases List.eq_nil_or_concat (significant cs) with hnil | ⟨front, c, hlast⟩
    · rw [hnil]
      exact Nat.zero_le index
    · rw [List.concat_eq_append] at hlast
      by_contra hlt
      rw [hlast, List.length_append, List.length_singleton] at hlt
      have hc : padded cs front.length = c := by
        rw [← padded_significant, hlast, padded, List.getElem?_append_right (Nat.le_refl _),
          Nat.sub_self]
        rfl
      exact ne_zero_of_significant hlast (hc.symm.trans (h front.length (by omega)))

/-- Main parts with the same padded components have the same significant ones. -/
theorem significant_congr (h : ∀ k, padded as k = padded bs k) :
    significant as = significant bs := by
  have hlength : (significant as).length = (significant bs).length := by
    refine Nat.le_antisymm ?_ ?_
    · rw [length_significant_le_iff, funext h, ← length_significant_le_iff]
    · rw [length_significant_le_iff, ← funext h, ← length_significant_le_iff]
  have htake := take_eq_of_padded (Nat.le_refl _) (Nat.le_of_eq hlength) fun k _ => by
    rw [padded_significant, padded_significant, h k]
  rwa [List.take_length, hlength, List.take_length] at htake

namespace Differ

/-- Behind the first components that differ nothing is looked at. -/
theorem then_eq (h : Differ as bs index) (o : Ordering) :
    (compare (padded as index) (padded bs index)).then o =
      compare (padded as index) (padded bs index) := by
  cases hcompare : compare (padded as index) (padded bs index) with
  | lt => rfl
  | eq => exact absurd (Std.LawfulEqOrd.eq_of_compare hcompare) h.here
  | gt => rfl

/-- Padded, the first components that differ decide. -/
theorem comparePadded_eq (h : Differ as bs index) :
    comparePadded .zero as bs = compare (padded as index) (padded bs index) :=
  (comparePadded_of_before Component.zero h.before).trans (h.then_eq _)

theorem before_significant (h : Differ as bs index) {k : Nat} (hk : k < index) :
    padded (significant as) k = padded (significant bs) k := by
  rw [padded_significant, padded_significant, h.before k hk]

/-- Where both main parts go on, the first components that differ decide. -/
theorem compare_of_inside (h : Differ as bs index) (ha : index < (significant as).length)
    (hb : index < (significant bs).length) :
    compare (significant as) (significant bs) = compare (padded as index) (padded bs index) := by
  rw [compare_of_padded ha hb fun k hk => h.before_significant hk, padded_significant,
    padded_significant, h.then_eq]

/-- Where one main part has ended, the other one goes on and is greater. -/
theorem compare_of_ended (h : Differ as bs index) (ha : (significant as).length ≤ index) :
    compare (significant as) (significant bs) = .lt := by
  have hzero := (length_significant_le_iff as index).mp ha index (Nat.le_refl index)
  have hb : index < (significant bs).length := by
    by_contra hb
    have hzero' := (length_significant_le_iff bs index).mp (Nat.le_of_not_lt hb)
    exact h.here (hzero.trans (hzero' index (Nat.le_refl index)).symm)
  exact compare_of_length_lt (by omega) fun k hk => h.before_significant (by omega)

/-- Where one main part has ended, the padded reading agrees if the other one does
    not go on with an empty text. -/
theorem compare_eq_of_ended (h : Differ as bs index) (ha : (significant as).length ≤ index)
    (hempty : ¬EndsAtEmpty as bs) :
    compare (significant as) (significant bs) = comparePadded .zero as bs := by
  have hzeros := (length_significant_le_iff as index).mp ha
  have hzero := hzeros index (Nat.le_refl index)
  have hgt := Component.compare_zero_eq_gt (fun hb => h.here (hzero.trans hb.symm))
    fun hb => hempty ⟨index, h.before, hzeros, hb⟩
  rw [h.compare_of_ended ha, h.comparePadded_eq, hzero, Std.OrientedCmp.lt_of_gt hgt]

end Differ

/-- A main part that has ended where another one goes on with an empty text is less
    in the order, and greater in the padded reading. -/
theorem EndsAtEmpty.opposite (h : EndsAtEmpty as bs) :
    compare (significant as) (significant bs) = .lt ∧ comparePadded .zero as bs = .gt := by
  rcases h with ⟨index, hbefore, hzeros, hempty⟩
  have hzero := hzeros index (Nat.le_refl index)
  have hdiffer : Differ as bs index := ⟨hbefore, by rw [hzero, hempty]; decide⟩
  refine ⟨hdiffer.compare_of_ended ((length_significant_le_iff as index).mpr hzeros), ?_⟩
  rw [hdiffer.comparePadded_eq, hzero, hempty]
  rfl

/-- Taking zeros away at the end is as good as putting them there, unless a main
    part ends where the other one goes on with an empty text. -/
theorem compare_significant_eq_iff (as bs : List Component) :
    compare (significant as) (significant bs) = comparePadded .zero as bs ↔
      ¬EndsAtEmpty as bs ∧ ¬EndsAtEmpty bs as := by
  have hswap : compare (significant as) (significant bs) =
      (compare (significant bs) (significant as)).swap := Std.OrientedOrd.eq_swap
  constructor
  · refine fun h => ⟨fun hempty => ?_, fun hempty => ?_⟩
    · rw [hempty.opposite.1, hempty.opposite.2] at h
      cases h
    · rw [hswap, comparePadded_swap, hempty.opposite.1, hempty.opposite.2] at h
      cases h
  · rintro ⟨hleft, hright⟩
    rcases same_or_differ as bs with hsame | ⟨index, hdiffer⟩
    · have hpadded : comparePadded .zero as bs = .eq := comparePadded_of_same Component.zero hsame
      rw [significant_congr hsame, Std.ReflOrd.compare_self, hpadded]
    · by_cases ha : index < (significant as).length
      · by_cases hb : index < (significant bs).length
        · rw [hdiffer.compare_of_inside ha hb, hdiffer.comparePadded_eq]
        · rw [hswap, hdiffer.symm.compare_eq_of_ended (Nat.le_of_not_lt hb) hright,
            ← comparePadded_swap]
      · exact hdiffer.compare_eq_of_ended (Nat.le_of_not_lt ha) hleft

/-- A main part without empty texts does not go on with one. -/
theorem not_endsAtEmpty (h : ∀ c ∈ bs, c ≠ .text []) : ¬EndsAtEmpty as bs := by
  rintro ⟨index, -, -, hempty⟩
  by_cases hb : index < bs.length
  · exact h _ (List.mem_of_getElem? (getElem?_eq_padded hb)) hempty
  · rw [padded_of_length_le (Nat.le_of_not_lt hb)] at hempty
    exact absurd hempty (by decide)

namespace Version

variable {v w : Version}

/-- A version that has neither a pre-release nor a build. -/
structure Bare (v : Version) : Prop where
  pre : v.pre? = none
  build : v.build? = none

theorem Bare.compare_eq (hv : v.Bare) (hw : w.Bare) :
    compare v w = compare (significant v.main) (significant w.main) := by
  rw [compare_eq_nested, hv.pre, hv.build, hw.pre, hw.build]
  change ((compare (significant v.main) (significant w.main)).then .eq).then .eq = _
  rw [Ordering.then_eq, Ordering.then_eq]

/-- Versions that have only a main part compare component by component, with zeros
    for those that are missing, unless one ends where the other goes on with an
    empty text. Then it is the lesser one, though zero is greater than that. -/
theorem compare_padded_iff (v w : Version) (hv : v.Bare) (hw : w.Bare) :
    (compare v w = comparePadded .zero v.main w.main ↔
      ¬EndsAtEmpty v.main w.main ∧ ¬EndsAtEmpty w.main v.main) ∧
    (EndsAtEmpty v.main w.main →
      compare v w = .lt ∧ comparePadded .zero v.main w.main = .gt) := by
  rw [hv.compare_eq hw]
  exact ⟨compare_significant_eq_iff v.main w.main, EndsAtEmpty.opposite⟩

/-- An empty text in front of other components is below zero in either reading,
    and at the end of a version it is not. -/
theorem compare_padded_iff_dots :
    compare (⟨"1..2".toList⟩ : Version) ⟨"1.0.0.1".toList⟩ =
      comparePadded .zero (main ⟨"1..2".toList⟩) (main ⟨"1.0.0.1".toList⟩) ∧
    compare (⟨"1.0".toList⟩ : Version) ⟨"1.".toList⟩ = .lt ∧
      comparePadded .zero (main ⟨"1.0".toList⟩) (main ⟨"1.".toList⟩) = .gt := by
  constructor
  · refine (compare_padded_iff _ _ ⟨rfl, rfl⟩ ⟨rfl, rfl⟩).1.mpr ⟨not_endsAtEmpty (by decide), ?_⟩
    rintro ⟨index, -, hzeros, hempty⟩
    -- The other version goes on up to its last component, where there is no empty text.
    have hlate : 3 < index := by
      by_contra hearly
      exact absurd (hzeros 3 (Nat.le_of_not_lt hearly)) (by decide)
    have hbehind : (main ⟨"1..2".toList⟩).length ≤ index := Nat.le_of_lt hlate
    rw [padded_of_length_le hbehind] at hempty
    exact absurd hempty (by decide)
  · refine (compare_padded_iff _ _ ⟨rfl, rfl⟩ ⟨rfl, rfl⟩).2 ⟨1, fun k hk => ?_, fun k hk => ?_, rfl⟩
    · rw [Nat.lt_one_iff.mp hk]
      rfl
    · rw [← padded_significant]
      exact padded_of_length_le hk

/-- The order is not the padded reading: `1.` comes after `1`. -/
theorem not_compare_padded :
    ¬∀ v w : Version, v.Bare → w.Bare → compare v w = comparePadded .zero v.main w.main := by
  intro h
  exact absurd (h ⟨"1.".toList⟩ ⟨"1".toList⟩ ⟨rfl, rfl⟩ ⟨rfl, rfl⟩) (by decide)

end Version

end PackageIndex
