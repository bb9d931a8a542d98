import PackageIndex.Proofs.Version.Preorder
import PackageIndex.Range.Basic

/-!
# The Best of Several Versions

The best of several versions is the greatest of those that lie in a range. Equal
versions may be spelled differently, and then the last one given is taken. So the
best one stands at a place of its own: no version in front of it that lies in the
range is greater, and all behind it that lie in the range are less.

The search goes through the versions once and changes to each one that is not
less than the best so far. A version that is passed over on the way either is
replaced by one that is not less, or does not replace one that is greater
(`IsLastGreatest.cons`, `IsLastGreatest.insert`).

## Main definitions

* `Version.IsLastGreatest`: The last of the greatest among several versions.

## Theorems

* `greatest?_isLastGreatest`: The search finds the last of the greatest.
* `best?_eq_none_iff`: When there is no best version.
* `best?_split`, `best?_position`: Where the best version stands.
-/

namespace PackageIndex

namespace Version

/-- A version is the last of the greatest among several: none in front of it is
    greater, and all behind it are less. -/
def IsLastGreatest (v : Version) (versions : List Version) : Prop :=
  ∃ front back, versions = front ++ v :: back ∧
    (∀ w ∈ front, (compare w v).isLE = true) ∧ ∀ w ∈ back, compare w v = .lt

theorem isLE_self (v : Version) : (compare v v).isLE = true := Std.ReflCmp.isLE_rfl

theorem lt_of_not_isLE {v w : Version} (h : ¬(compare v w).isLE = true) : compare w v = .lt := by
  rw [compare_swap]
  cases hcompare : compare v w with
  | gt => rfl
  | lt => exact absurd (by rw [hcompare]; rfl) h
  | eq => exact absurd (by rw [hcompare]; rfl) h

namespace IsLastGreatest

variable {u v w : Version} {rest : List Version}

theorem head_isLE (h : v.IsLastGreatest (w :: rest)) : (compare w v).isLE = true := by
  rcases h with ⟨front, back, hversions, hfront, -⟩
  cases front with
  | nil =>
      rw [(List.cons.inj hversions).1]
      exact isLE_self v
  | cons x front =>
      rw [(List.cons.inj hversions).1]
      exact hfront x List.mem_cons_self

/-- A version in front of all others changes nothing if it is not greater. -/
theorem extend (h : v.IsLastGreatest rest) (hle : (compare u v).isLE = true) :
    v.IsLastGreatest (u :: rest) := by
  rcases h with ⟨front, back, hversions, hfront, hback⟩
  refine ⟨u :: front, back, by rw [hversions, List.cons_append], fun x hx => ?_, hback⟩
  rcases List.mem_cons.mp hx with rfl | hx
  · exact hle
  · exact hfront x hx

/-- A version in front of one that is not less changes nothing. -/
theorem cons (h : v.IsLastGreatest (w :: rest)) (hle : (compare u w).isLE = true) :
    v.IsLastGreatest (u :: w :: rest) :=
  h.extend (Std.TransCmp.isLE_trans hle h.head_isLE)

/-- A version behind one that is greater changes nothing. -/
theorem insert (h : v.IsLastGreatest (w :: rest)) (hlt : compare u w = .lt) :
    v.IsLastGreatest (w :: u :: rest) := by
  have huv : compare u v = .lt := Std.TransCmp.lt_of_lt_of_isLE hlt h.head_isLE
  rcases h with ⟨front, back, hversions, hfront, hback⟩
  cases front with
  | nil =>
      rcases List.cons.inj hversions with ⟨rfl, rfl⟩
      refine ⟨[], u :: rest, rfl, fun x hx => absurd hx List.not_mem_nil, fun x hx => ?_⟩
      rcases List.mem_cons.mp hx with rfl | hx
      · exact huv
      · exact hback x hx
  | cons y front =>
      rcases List.cons.inj hversions with ⟨rfl, rfl⟩
      refine ⟨w :: u :: front, back, rfl, fun x hx => ?_, hback⟩
      rcases List.mem_cons.mp hx with rfl | hx
      · exact hfront x List.mem_cons_self
      · rcases List.mem_cons.mp hx with rfl | hx
        · rw [huv]
          rfl
        · exact hfront x (List.mem_cons_of_mem _ hx)

end IsLastGreatest

/-- The search, from the best version so far. -/
theorem isLastGreatest_foldl (v : Version) (rest : List Version) :
    (rest.foldl (fun best w => if (compare best w).isLE then w else best) v).IsLastGreatest
      (v :: rest) := by
  induction rest generalizing v with
  | nil => exact ⟨[], [], rfl, by simp, by simp⟩
  | cons w rest ih =>
      rw [List.foldl_cons]
      by_cases hle : (compare v w).isLE = true
      · rw [if_pos hle]
        exact (ih w).cons hle
      · rw [if_neg hle]
        exact (ih v).insert (lt_of_not_isLE hle)

theorem greatest?_isLastGreatest {versions : List Version} {v : Version}
    (h : greatest? versions = some v) : v.IsLastGreatest versions := by
  cases versions with
  | nil => cases h
  | cons w rest =>
      rw [← Option.some.inj h]
      exact isLastGreatest_foldl w rest

theorem greatest?_eq_none_iff (versions : List Version) :
    greatest? versions = none ↔ versions = [] := by
  cases versions with
  | nil => exact iff_of_true rfl rfl
  | cons v rest => exact iff_of_false (by simp [greatest?]) (List.cons_ne_nil v rest)

end Version

namespace Range

variable {r : Range} {versions : List Version} {setting : Option Bool} {v : Version}

/-- There is no best version if none lies in the range. -/
theorem best?_eq_none_iff :
    r.best? versions setting = none ↔ ∀ v ∈ versions, r.contains v setting = false := by
  rw [best?, Version.greatest?_eq_none_iff, satisfying, List.filter_eq_nil_iff]
  simp only [Bool.not_eq_true]

/-- The best version lies in the range. Those in front of it that do are not
    greater, and those behind it that do are less. -/
theorem best?_split (h : r.best? versions setting = some v) :
    ∃ front back, versions = front ++ v :: back ∧ r.contains v setting = true ∧
      (∀ w ∈ front, r.contains w setting = true → (compare w v).isLE = true) ∧
      ∀ w ∈ back, r.contains w setting = true → compare w v = .lt := by
  rcases Version.greatest?_isLastGreatest h with ⟨kept, others, hsplit, hkept, hothers⟩
  rcases List.filter_eq_append_iff.mp hsplit with ⟨first, second, rfl, rfl, hsecond⟩
  rcases List.filter_eq_cons_iff.mp hsecond with ⟨between, back, rfl, hbetween, hv, rfl⟩
  refine ⟨first ++ between, back, by rw [List.append_assoc], hv, fun w hw hcontains => ?_,
    fun w hw hcontains => hothers w (List.mem_filter.mpr ⟨hw, hcontains⟩)⟩
  rcases List.mem_append.mp hw with hw | hw
  · exact hkept w (List.mem_filter.mpr ⟨hw, hcontains⟩)
  · exact absurd hcontains (hbetween w hw)

/-- Where the best version stands, by its index. -/
theorem best?_position (h : r.best? versions setting = some v) :
    ∃ k, versions[k]? = some v ∧ r.contains v setting = true ∧
      ∀ (j : Nat) (w : Version), versions[j]? = some w → r.contains w setting = true →
        (compare w v).isLE = true ∧ (k < j → compare w v = .lt) := by
  rcases best?_split h with ⟨front, back, rfl, hv, hfront, hback⟩
  have hplace : (front ++ v :: back)[front.length]? = some v := by
    rw [List.getElem?_append_right (Nat.le_refl _), Nat.sub_self]
    rfl
  refine ⟨front.length, hplace, hv, fun j w hw hcontains => ?_⟩
  rcases Nat.lt_trichotomy j front.length with hj | rfl | hj
  · rw [List.getElem?_append_left hj] at hw
    exact ⟨hfront w (List.mem_of_getElem? hw) hcontains, fun h => absurd h (Nat.lt_asymm hj)⟩
  · rw [Option.some.inj (hw.symm.trans hplace)]
    exact ⟨Version.isLE_self v, fun h => absurd h (Nat.lt_irrefl front.length)⟩
  · rw [List.getElem?_append_right (Nat.le_of_lt hj),
      ← Nat.succ_pred_eq_of_pos (Nat.sub_pos_of_lt hj)] at hw
    have hlt := hback w (List.mem_of_getElem? hw) hcontains
    exact ⟨by rw [hlt]; rfl, fun _ => hlt⟩

end Range

end PackageIndex
