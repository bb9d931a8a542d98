import Mathlib.Tactic.ByContra
import PackageIndex.Proofs.Outcome
import PackageIndex.Proofs.Text.Numeral
import PackageIndex.Proofs.Text.Pieces
import PackageIndex.Version.Bound
import PackageIndex.Version.Nesting

/-!
# What Lies Between the Bounds of a Version

The ends of a pinned range are made as texts and read as versions. Here they
are given by their parts (`lowerBound_main`, `upperBound_parts`), and what lies
between them is found (`lt_upperBound_iff`).

A component that does not exist counts as zero, so components are compared
padded (`Version.padded`). The order compares main parts without the zeros at
their end, and not padded, which is not the same: the empty text is less than
zero, and yet a version that has one where another has ended is the greater of
the two. Such a version may be the lower end. What has to be excluded is only
that the version in question has one.

The argument is about the first component in which a version differs from the
lower end. At that place it must have a component, and the greater one, or it
would lie below the lower end. If the place is not behind the pinned one, the
version then is not below the upper end either.

## Main definitions

* `Version.padded`: The component at an index, a missing one being zero.
* `Component.successor?`: The number that is one more than a component.
* `Version.Uncountable`: A component that has no successor.

## Theorems

* `compare_eq_of_take`: Lists with a common beginning compare by what follows.
* `padded_significant`: Dropping zeros at the end does not change components.
* `lowerBound_main`: The lower end has the same main part.
* `counted_eq_error_iff`: Counting up is refused without a successor.
* `lowerBound_parts`, `upperBound_parts`, `bump_parts`: The parts of the ends
  and of a bump.
* `upperBound_exact`: Counting up for it never wraps around.
* `compare_marker_eq_lt_iff`: Only main parts decide what is below the upper
  end.
* `lt_upperBound_iff`: Between the ends are those with the same components up
  to the pinned one.
-/

namespace PackageIndex

/-- The component at an index of a main part, a missing one being zero. -/
def padded (cs : List Component) (index : Nat) : Component := cs[index]?.getD .zero

/-- Lists with a common beginning compare by what follows it. -/
theorem compare_append (front as bs : List Component) :
    compare (front ++ as) (front ++ bs) = compare as bs := by
  induction front with
  | nil => rfl
  | cons c front ih =>
      rw [List.cons_append, List.cons_append, List.compare_cons_cons, ih,
        Std.ReflOrd.compare_self]
      rfl

theorem compare_eq_of_take {as bs : List Component} {n : Nat} (h : as.take n = bs.take n) :
    compare as bs = compare (as.drop n) (bs.drop n) := by
  have happend := compare_append (as.take n) (as.drop n) (bs.drop n)
  rwa [List.take_append_drop, h, List.take_append_drop] at happend

/-- Dropping zeros at the end does not change the components. -/
theorem padded_significant (cs : List Component) (index : Nat) :
    padded (significant cs) index = padded cs index := by
  unfold padded
  induction cs generalizing index with
  | nil => rfl
  | cons c rest ih =>
      rw [significant]
      split
      · rename_i hrest
        -- Everything behind the first component is zero.
        have hzero : ∀ i : Nat, rest[i]?.getD Component.zero = Component.zero := by
          intro i
          rw [← ih i, hrest]
          rfl
        by_cases hc : c = .zero
        · rw [if_pos hc]
          cases index with
          | zero => rw [hc]; rfl
          | succ index => exact (hzero index).symm
        · rw [if_neg hc]
          cases index with
          | zero => rfl
          | succ index => exact (hzero index).symm
      · rename_i d others hrest
        rw [← hrest]
        cases index with
        | zero => rfl
        | succ index => exact ih index

/-- A main part whose last component is not zero has nothing to drop. -/
theorem significant_append_singleton (cs : List Component) {c : Component} (hc : c ≠ .zero) :
    significant (cs ++ [c]) = cs ++ [c] := by
  induction cs with
  | nil => rw [List.nil_append, significant, significant, if_neg hc]
  | cons d cs ih =>
      obtain ⟨e, others, he⟩ := List.exists_cons_of_ne_nil
        (List.append_ne_nil_of_right_ne_nil cs (List.cons_ne_nil c []))
      rw [List.cons_append, significant, ih, he]

theorem significant_append_zeros (cs : List Component) (count : Nat) :
    significant (cs ++ List.replicate count .zero) = significant cs := by
  induction cs with
  | nil =>
      rw [List.nil_append, (significant_eq_nil_iff _).mpr]
      · rfl
      · exact fun c hc => List.eq_of_mem_replicate hc
  | cons c cs ih => rw [List.cons_append, significant, significant, ih]

theorem getElem?_eq_padded {cs : List Component} {index : Nat} (h : index < cs.length) :
    cs[index]? = some (padded cs index) := by
  rw [padded, List.getElem?_eq_getElem h, Option.getD_some]

theorem padded_of_length_le {cs : List Component} {index : Nat} (h : cs.length ≤ index) :
    padded cs index = .zero := by
  rw [padded, List.getElem?_eq_none h, Option.getD_none]

theorem take_eq_of_padded {as bs : List Component} {n : Nat} (ha : n ≤ as.length)
    (hb : n ≤ bs.length) (h : ∀ k < n, padded as k = padded bs k) : as.take n = bs.take n := by
  refine List.ext_getElem? fun k => ?_
  rw [List.getElem?_take, List.getElem?_take]
  by_cases hk : k < n
  · rw [if_pos hk, if_pos hk, getElem?_eq_padded (by omega), getElem?_eq_padded (by omega), h k hk]
  · rw [if_neg hk, if_neg hk]

theorem drop_eq_padded_cons {cs : List Component} {index : Nat} (h : index < cs.length) :
    cs.drop index = padded cs index :: cs.drop (index + 1) := by
  rw [List.drop_eq_getElem_cons h, padded, List.getElem?_eq_getElem h, Option.getD_some]

/-- Main parts with the same components in front compare by the components at
    the index, if both have one. -/
theorem compare_of_padded {as bs : List Component} {index : Nat} (ha : index < as.length)
    (hb : index < bs.length) (h : ∀ k < index, padded as k = padded bs k) :
    compare as bs = (compare (padded as index) (padded bs index)).then
      (compare (as.drop (index + 1)) (bs.drop (index + 1))) := by
  have htake := take_eq_of_padded (Nat.le_of_lt ha) (Nat.le_of_lt hb) h
  rw [compare_eq_of_take htake, drop_eq_padded_cons ha, drop_eq_padded_cons hb,
    List.compare_cons_cons]

/-- A main part that goes on as another one ends is the greater of the two. -/
theorem compare_of_length_lt {as bs : List Component} (hlt : as.length < bs.length)
    (h : ∀ k < as.length, padded as k = padded bs k) : compare as bs = .lt := by
  have htake := take_eq_of_padded (Nat.le_refl _) (Nat.le_of_lt hlt) h
  rw [compare_eq_of_take htake, List.drop_length, drop_eq_padded_cons hlt, List.compare_nil_cons]

/-- A main part is not below one that ends with the component at an index, if
    it agrees with it in front and is not below it there. -/
theorem compare_ne_lt_of_last {as bs : List Component} {index : Nat} (ha : index < as.length)
    (hb : bs.length = index + 1) (hsame : ∀ k < index, padded as k = padded bs k)
    (hlast : compare (padded as index) (padded bs index) ≠ .lt) : compare as bs ≠ .lt := by
  have hend : bs.drop (index + 1) = [] := List.drop_eq_nil_of_le (by omega)
  rw [compare_of_padded ha (by omega) hsame, hend]
  cases hcompare : compare (padded as index) (padded bs index) with
  | lt => exact absurd hcompare hlast
  | eq =>
      cases as.drop (index + 1) with
      | nil => decide
      | cons c rest => simp [List.compare_cons_nil]
  | gt => simp

namespace Component

/-- A component is written as it was read, unless it is a number. -/
theorem write_ofText (s : Text) : (ofText s).write = s ∨ ∃ n, ofText s = number n := by
  unfold ofText
  split
  · split
    · exact Or.inr ⟨_, rfl⟩
    · exact Or.inl rfl
  · exact Or.inl rfl

/-- A component is read back from its text. -/
theorem ofText_write_ofText (s : Text) : ofText (ofText s).write = ofText s := by
  rcases write_ofText s with h | ⟨n, h⟩
  · rw [h]
  · rw [h, ofText_write_number]

/-- The text of a component has digits or what the component was read from. -/
theorem mem_write_ofText {s : Text} {c : Char} (h : c ∈ (ofText s).write) :
    c.isDigit = true ∨ c ∈ s := by
  rcases write_ofText s with hs | ⟨n, hs⟩
  · rw [hs] at h
    exact Or.inr h
  · rw [hs] at h
    exact Or.inl (Numeral.isDigit_of_mem_write h)

theorem compare_number (m n : UInt64) :
    compare (number m) (number n) = compare m.toNat n.toNat := by
  change ((compare m.toNat n.toNat).then .eq) = _
  cases compare m.toNat n.toNat <;> rfl

/-- Nothing lies between a number and the next one. -/
theorem compare_next_ne_lt {c : Component} {n next : UInt64} (hnext : next.toNat = n.toNat + 1)
    (h : compare c (number n) = .gt) : compare c (number next) ≠ .lt := by
  cases c with
  | number m =>
      rw [compare_number, Nat.compare_eq_gt] at h
      rw [compare_number, ne_eq, Nat.compare_eq_lt]
      omega
  | text s =>
      cases s with
      | nil => exact absurd h (by change (Ordering.lt ≠ _); simp)
      | cons a s =>
          change Ordering.gt ≠ _
          simp

/-- Only the empty text is less than zero. -/
theorem compare_zero_eq_gt {c : Component} (hzero : c ≠ zero) (htext : c ≠ text []) :
    compare c zero = .gt := by
  cases c with
  | number m =>
      have hm : m.toNat ≠ (0 : UInt64).toNat := fun hm => hzero (congrArg number (UInt64.toNat_inj.mp hm))
      rw [zero, compare_number, Nat.compare_eq_gt]
      have hz : (0 : UInt64).toNat = 0 := rfl
      omega
  | text s =>
      cases s with
      | nil => exact absurd rfl htext
      | cons a s => rfl

/-- The successor of a component, if it has one. -/
def successor? : Component → Option Nat
  | number n => if n.toNat + 1 < UInt64.size then some (n.toNat + 1) else none
  | text _ => none

theorem successor?_eq_some_iff (c : Component) (k : Nat) :
    c.successor? = some k ↔ ∃ n, c = number n ∧ k = n.toNat + 1 ∧ k < UInt64.size := by
  cases c with
  | text s => simp [successor?]
  | number n =>
      rw [successor?]
      by_cases hlt : n.toNat + 1 < UInt64.size
      · rw [if_pos hlt]
        constructor
        · intro h
          exact ⟨n, rfl, (Option.some.inj h).symm, Option.some.inj h ▸ hlt⟩
        · rintro ⟨m, hm, rfl, -⟩
          rw [number.inj hm]
      · rw [if_neg hlt]
        refine iff_of_false (by simp) ?_
        rintro ⟨m, hm, rfl, hk⟩
        rw [number.inj hm] at hlt
        exact hlt hk

/-- Only text and the greatest number have no successor. -/
theorem successor?_eq_none_iff (c : Component) :
    c.successor? = none ↔ (∃ spelling, c = text spelling) ∨ c = number 18446744073709551615 := by
  cases c with
  | text s => simp [successor?]
  | number n =>
      have hlt : n.toNat < UInt64.size := n.toNat_lt
      have hsize : UInt64.size = 18446744073709551616 := rfl
      have hmax : n = 18446744073709551615 ↔ n.toNat = 18446744073709551615 := by
        rw [← UInt64.toNat_inj]
        rfl
      rw [successor?, number.injEq, hmax]
      simp only [ite_eq_right_iff, reduceCtorEq, imp_false, exists_const, false_or]
      omega

/-- The text of a number that fits stands for it. -/
theorem ofText_write {n : Nat} (h : n < UInt64.size) :
    ofText (Numeral.write n) = .number (UInt64.ofNatLT n h) := by
  unfold ofText
  rw [Numeral.read?_write]
  exact dif_pos h

end Component

/-- Where a main part that is not below another first differs from it, it has a
    component, and the greater one. -/
theorem compare_first_difference {as bs : List Component} {index : Nat}
    (hge : (compare as bs).isGE = true) (htext : padded as index ≠ .text [])
    (hsame : ∀ k < index, padded as k = padded bs k) (hne : padded as index ≠ padded bs index) :
    index < as.length ∧ compare (padded as index) (padded bs index) = .gt := by
  by_cases ha : index < as.length
  · refine ⟨ha, ?_⟩
    by_cases hb : index < bs.length
    · rw [compare_of_padded ha hb hsame] at hge
      cases hcompare : compare (padded as index) (padded bs index) with
      | lt =>
          rw [hcompare] at hge
          exact absurd hge Bool.false_ne_true
      | eq => exact absurd (Std.LawfulEqOrd.eq_of_compare hcompare) hne
      | gt => rfl
    · rw [padded_of_length_le (Nat.le_of_not_lt hb)] at hne ⊢
      exact Component.compare_zero_eq_gt hne htext
  · -- It has ended there, and the other goes on.
    have hzero := padded_of_length_le (Nat.le_of_not_lt ha)
    have hb : index < bs.length := by
      by_contra hb
      rw [hzero, padded_of_length_le (Nat.le_of_not_lt hb)] at hne
      exact hne rfl
    rw [compare_of_length_lt (by omega) fun k hk => hsame k (by omega)] at hge
    exact absurd hge (by decide)

/-- The components of a main part up to an index, and one of its own behind
    them. -/
theorem padded_range_append (cs : List Component) (index : Nat) (c : Component) :
    ((List.range index).map (padded cs) ++ [c]).length = index + 1 ∧
      (∀ k < index, padded ((List.range index).map (padded cs) ++ [c]) k = padded cs k) ∧
      padded ((List.range index).map (padded cs) ++ [c]) index = c := by
  refine ⟨?_, fun k hk => ?_, ?_⟩
  · rw [List.length_append, List.length_map, List.length_range, List.length_singleton]
  · rw [padded, List.getElem?_append_left (by simpa using hk), List.getElem?_map,
      List.getElem?_range hk]
    rfl
  · rw [padded, List.getElem?_append_right (by simp)]
    simp

/-- A main part is below another one with the component at an index counted up,
    if they agree up to the index. -/
theorem compare_counted_eq_lt {as bs : List Component} {index : Nat} {n next : UInt64}
    (hn : padded bs index = .number n) (hnext : next.toNat = n.toNat + 1)
    (hsame : ∀ k ≤ index, padded as k = padded bs k) :
    compare as ((List.range index).map (padded bs) ++ [.number next]) = .lt := by
  rcases padded_range_append bs index (.number next) with ⟨hlength, hfront, hlast⟩
  generalize (List.range index).map (padded bs) ++ [Component.number next] = upper at *
  -- It is below by the number counted up, or by ending before it.
  by_cases ha : index < as.length
  · have hlt : compare (Component.number n) (.number next) = .lt := by
      rw [Component.compare_number, Nat.compare_eq_lt]
      omega
    rw [compare_of_padded ha (by omega) fun k hk => by rw [hsame k (by omega), hfront k hk],
      hsame index (Nat.le_refl _), hn, hlast, hlt]
    rfl
  · exact compare_of_length_lt (by omega) fun k hk => by
      rw [hsame k (by omega), hfront k (by omega)]

/-- A main part that is not below another is below it with the component at an
    index counted up if and only if the components up to the index agree. -/
theorem compare_counted_eq_lt_iff {as bs : List Component} {index : Nat} {n next : UInt64}
    (hn : padded bs index = .number n) (hnext : next.toNat = n.toNat + 1)
    (hge : (compare as bs).isGE = true) (htext : ∀ k, padded as k ≠ .text []) :
    compare as ((List.range index).map (padded bs) ++ [.number next]) = .lt ↔
      ∀ k ≤ index, padded as k = padded bs k := by
  refine ⟨?_, compare_counted_eq_lt hn hnext⟩
  rcases padded_range_append bs index (.number next) with ⟨hlength, hfront, hlast⟩
  generalize (List.range index).map (padded bs) ++ [Component.number next] = upper at *
  intro hlt k hk
  -- The first difference would put the main part above the upper end.
  induction k using Nat.strongRecOn with
  | _ k ih =>
      by_contra hne
      rcases compare_first_difference hge (htext k) (fun i hi => ih i hi (by omega)) hne with
        ⟨ha, hgt⟩
      have hsame : ∀ i < k, padded as i = padded upper i := by
        intro i hi
        rw [ih i hi (by omega), hfront i (by omega)]
      rcases Nat.lt_or_eq_of_le hk with hk | rfl
      · rw [compare_of_padded ha (by omega) hsame, hfront k hk, hgt] at hlt
        exact absurd hlt (by simp)
      · -- At the index itself there is nothing between a number and the next.
        rw [hn] at hgt
        refine compare_ne_lt_of_last ha hlength hsame ?_ hlt
        rw [hlast]
        exact Component.compare_next_ne_lt hnext hgt

namespace Version

/-- The component at an index, a missing one being zero. -/
def padded (v : Version) (index : Nat) : Component := PackageIndex.padded v.main index

/-- No separator stands before the first separator. -/
theorem not_mem_head (v : Version) : '+' ∉ v.head ∧ '-' ∉ v.head :=
  ⟨fun h => Text.not_mem_cut '+' v.text (Text.mem_of_mem_cut_front h), Text.not_mem_cut '-' v.body⟩

/-- A component was read from a text without separators. -/
theorem exists_padded_eq (v : Version) (index : Nat) :
    ∃ s, v.padded index = Component.ofText s ∧ '+' ∉ s ∧ '-' ∉ s ∧ '.' ∉ s := by
  unfold padded PackageIndex.padded
  cases h : v.main[index]? with
  | none =>
      refine ⟨['0'], rfl, ?_, ?_, ?_⟩ <;> decide
  | some c =>
      obtain ⟨s, hs, hc⟩ := List.mem_map.mp (List.mem_of_getElem? h)
      refine ⟨s, hc.symm, fun hmem => ?_, fun hmem => ?_, ?_⟩
      · exact v.not_mem_head.1 (Text.mem_of_mem_pieces hs hmem)
      · exact v.not_mem_head.2 (Text.mem_of_mem_pieces hs hmem)
      · exact Text.sep_not_mem_of_mem_pieces '.' v.head s hs

/-- A component is read back from its text in a bound. -/
theorem ofText_componentText (v : Version) (index : Nat) :
    Component.ofText (v.componentText index) = v.padded index := by
  obtain ⟨s, hs, -⟩ := v.exists_padded_eq index
  change Component.ofText (v.padded index).write = _
  rw [hs, Component.ofText_write_ofText]

/-- The text of a component holds no separator. -/
theorem not_mem_componentText (v : Version) (index : Nat) :
    '+' ∉ v.componentText index ∧ '-' ∉ v.componentText index ∧ '.' ∉ v.componentText index := by
  obtain ⟨s, hs, hplus, hdash, hdot⟩ := v.exists_padded_eq index
  -- Writing a component anew adds nothing to its text but digits.
  have hmem : ∀ c, c.isDigit = false → c ∉ s → c ∉ v.componentText index := by
    intro c hdigit hc hmem
    change c ∈ (v.padded index).write at hmem
    rw [hs] at hmem
    rcases Component.mem_write_ofText hmem with h | h
    · rw [hdigit] at h
      exact Bool.false_ne_true h
    · exact hc h
  exact ⟨hmem _ (by decide) hplus, hmem _ (by decide) hdash, hmem _ (by decide) hdot⟩

/-- A missing component has the successor of zero. -/
theorem successor?_eq (v : Version) (index : Nat) :
    v.successor? index = (v.padded index).successor? := by
  unfold successor? padded PackageIndex.padded component?
  cases v.main[index]? with
  | none => rfl
  | some c => cases c <;> rfl

/-- What is counted up is a number, or a component that is missing. -/
theorem counted_eq {v : Version} {index : Nat} {front : List Text}
    (h : v.counted index = .ok front) :
    ∃ n next : UInt64, v.padded index = .number n ∧ next.toNat = n.toNat + 1 ∧
      front = (List.range index).map v.componentText ++ [Numeral.write next.toNat] := by
  unfold counted at h
  cases hnext : v.successor? index with
  | none =>
      rw [hnext] at h
      exact absurd h (by simp)
  | some k =>
      rw [hnext, Except.ok.injEq] at h
      rw [successor?_eq, Component.successor?_eq_some_iff] at hnext
      rcases hnext with ⟨n, hn, hk, hlt⟩
      refine ⟨n, UInt64.ofNatLT k hlt, hn, ?_, ?_⟩
      · rw [UInt64.toNat_ofNatLT, hk]
      · rw [UInt64.toNat_ofNatLT, h]

/-- A component that has no successor: it is text, or the greatest number. -/
def Uncountable (v : Version) (index : Nat) : Prop :=
  (∃ spelling, v.component? index = some (.text spelling)) ∨
    v.component? index = some (.number 18446744073709551615)

theorem successor?_eq_none_iff (v : Version) (index : Nat) :
    v.successor? index = none ↔ v.Uncountable index := by
  rw [successor?_eq, Component.successor?_eq_none_iff, Uncountable, padded, PackageIndex.padded,
    component?]
  cases v.main[index]? with
  | none => simp [Component.zero]
  | some c => simp

/-- Counting up is refused for components without a successor, and only for
    them. -/
theorem counted_eq_error_iff (v : Version) (index : Nat) (refusal : Refusal) :
    v.counted index = .error refusal ↔
      v.Uncountable index ∧ refusal = .notNumeric v.text index := by
  rw [← successor?_eq_none_iff, counted]
  cases v.successor? index with
  | none => simp [eq_comm]
  | some n => simp

theorem upperBound_eq_error_iff (v : Version) (index : Nat) (refusal : Refusal) :
    v.upperBound index = .error refusal ↔
      v.Uncountable index ∧ refusal = .notNumeric v.text index := by
  rw [← counted_eq_error_iff, upperBound, bind_pure_eq_error_iff]

theorem bump_eq_error_iff (v : Version) (index : Nat) (refusal : Refusal) :
    v.bump index = .error refusal ↔
      v.Uncountable index ∧ refusal = .notNumeric v.text index := by
  rw [← counted_eq_error_iff, bump, bind_pure_eq_error_iff]

/-- The pieces that are counted up hold no separators, so the components they
    stand for are those of the version, the last one counted up. -/
theorem counted_parts {v : Version} {index : Nat} {front : List Text}
    (h : v.counted index = .ok front) :
    front ≠ [] ∧ (∀ p ∈ front, '+' ∉ p ∧ '-' ∉ p ∧ '.' ∉ p) ∧
      ∃ n next : UInt64, v.padded index = .number n ∧ next.toNat = n.toNat + 1 ∧
        front.map Component.ofText = (List.range index).map v.padded ++ [.number next] := by
  obtain ⟨n, next, hn, hnext, hfront⟩ := counted_eq h
  have hlast : ∀ c, c.isDigit = false → c ∉ Numeral.write next.toNat := by
    intro c hc hmem
    rw [Numeral.isDigit_of_mem_write hmem] at hc
    exact Bool.false_ne_true hc.symm
  refine ⟨?_, fun p hp => ?_, n, next, hn, hnext, ?_⟩
  · rw [hfront]
    exact List.append_ne_nil_of_right_ne_nil _ (List.cons_ne_nil _ _)
  · rw [hfront] at hp
    rcases List.mem_append.mp hp with hp | hp
    · obtain ⟨i, -, rfl⟩ := List.mem_map.mp hp
      exact v.not_mem_componentText i
    · rw [List.mem_singleton.mp hp]
      exact ⟨hlast _ (by decide), hlast _ (by decide), hlast _ (by decide)⟩
  · rw [hfront, List.map_append, List.map_map]
    congr 1
    · exact List.map_congr_left fun i _ => v.ofText_componentText i
    · rw [List.map_singleton, Component.ofText_write next.toNat_lt]
      exact congrArg (fun m => [Component.number m]) (UInt64.ofNatLT_toNat next)

/-- Pieces without separators that are joined by dots stand for their
    components, and no part begins among them. -/
theorem join_parts {pieces : List Text} (hne : pieces ≠ [])
    (h : ∀ p ∈ pieces, '+' ∉ p ∧ '-' ∉ p ∧ '.' ∉ p) :
    '+' ∉ Text.join ['.'] pieces ∧ '-' ∉ Text.join ['.'] pieces ∧
      components (Text.join ['.'] pieces) = pieces.map Component.ofText := by
  refine ⟨Text.not_mem_join (by decide) fun p hp => (h p hp).1,
    Text.not_mem_join (by decide) fun p hp => (h p hp).2.1, ?_⟩
  rw [components, Text.pieces_join hne fun p hp => (h p hp).2.2]

/-- The parts of a text that is nothing but a main part. -/
theorem parts_plain {front : Text} (hplus : '+' ∉ front) (hdash : '-' ∉ front) :
    main ⟨front⟩ = components front ∧ pre? ⟨front⟩ = none ∧ build? ⟨front⟩ = none := by
  unfold main head pre? build? body
  simp only [Text.cut_eq_of_not_mem hplus, Text.cut_eq_of_not_mem hdash, Option.map_none]
  exact ⟨trivial, trivial, trivial⟩

/-- The parts of a text that is a main part and an empty pre-release. -/
theorem parts_marker {front : Text} (hplus : '+' ∉ front) (hdash : '-' ∉ front) :
    main ⟨front ++ ['-']⟩ = components front ∧ pre? ⟨front ++ ['-']⟩ = some ⟨[]⟩ ∧
      build? ⟨front ++ ['-']⟩ = none := by
  have hbody : Text.cut '+' (front ++ ['-']) = (front ++ ['-'], none) := by
    refine Text.cut_eq_of_not_mem fun h => ?_
    rcases List.mem_append.mp h with h | h
    · exact hplus h
    · exact absurd (List.mem_singleton.mp h) (by decide)
  have hcut : Text.cut '-' (front ++ ['-']) = (front, some []) := Text.cut_append hdash []
  unfold main head pre? build? body
  simp only [hbody, hcut, Option.map_some, Option.map_none]
  exact ⟨trivial, trivial, trivial⟩

/-- A version without parts holds no separator of one. -/
theorem not_mem_of_no_parts {v : Version} (hpre : v.pre? = none) (hbuild : v.build? = none) :
    '+' ∉ v.text ∧ '-' ∉ v.text := by
  have hplus := Text.not_mem_of_cut_none (Option.map_eq_none_iff.mp hbuild)
  have hdash := Text.not_mem_of_cut_none (Option.map_eq_none_iff.mp hpre)
  rw [body, Text.cut_eq_of_not_mem hplus] at hdash
  exact ⟨hplus, hdash⟩

/-- The parts of the lower end of a version without parts. -/
theorem lowerBound_parts {v : Version} (hpre : v.pre? = none) (hbuild : v.build? = none) :
    v.lowerBound.main = v.main ∧ v.lowerBound.pre? = some ⟨[]⟩ ∧ v.lowerBound.build? = none := by
  obtain ⟨hplus, hdash⟩ := not_mem_of_no_parts hpre hbuild
  have hlower : v.lowerBound = ⟨v.text ++ ['-']⟩ := by
    rw [lowerBound, hpre, hbuild]
    rfl
  rw [hlower, (parts_plain hplus hdash).1]
  exact parts_marker hplus hdash

/-- A version that has a part is its own lower end. -/
theorem lowerBound_eq_self {v : Version} (h : v.pre? ≠ none ∨ v.build? ≠ none) :
    v.lowerBound = v := by
  rw [lowerBound, if_pos]
  simpa [← Option.ne_none_iff_isSome] using h

/-- The lower end has the same main part. -/
theorem lowerBound_main (v : Version) : v.lowerBound.main = v.main := by
  by_cases h : v.pre? ≠ none ∨ v.build? ≠ none
  · rw [lowerBound_eq_self h]
  · rw [not_or, not_not, not_not] at h
    exact (lowerBound_parts h.1 h.2).1

/-- The parts of the upper end: the components up to the index, with the one at
    the index counted up, and the empty pre-release. -/
theorem upperBound_parts {v upper : Version} {index : Nat} (h : v.upperBound index = .ok upper) :
    ∃ n next : UInt64, v.padded index = .number n ∧ next.toNat = n.toNat + 1 ∧
      upper.main = (List.range index).map v.padded ++ [.number next] ∧
      upper.pre? = some ⟨[]⟩ ∧ upper.build? = none := by
  unfold upperBound at h
  cases hcounted : v.counted index with
  | error refusal =>
      rw [hcounted] at h
      exact absurd h (by simp [bind, Except.bind])
  | ok front =>
      rw [hcounted] at h
      have hupper : upper = ⟨Text.join ['.'] front ++ ['-']⟩ := (Except.ok.inj h).symm
      obtain ⟨hne, hpieces, n, next, hn, hnext, hcomponents⟩ := counted_parts hcounted
      -- No piece holds a separator, so joining and reading undo each other.
      obtain ⟨hplus, hdash, hjoin⟩ := join_parts hne hpieces
      obtain ⟨hmain, hpre, hbuild⟩ := parts_marker hplus hdash
      rw [hupper]
      exact ⟨n, next, hn, hnext, by rw [hmain, hjoin, hcomponents], hpre, hbuild⟩

/-- The parts of a bump: the components up to the index, with the one at the
    index counted up, and zeros for the others. -/
theorem bump_parts {v bumped : Version} {index : Nat} (h : v.bump index = .ok bumped) :
    ∃ n next : UInt64, v.padded index = .number n ∧ next.toNat = n.toNat + 1 ∧
      bumped.main = (List.range index).map v.padded ++ [.number next] ++
        List.replicate (v.main.length - (index + 1)) .zero ∧
      bumped.pre? = none ∧ bumped.build? = none := by
  unfold bump at h
  cases hcounted : v.counted index with
  | error refusal =>
      rw [hcounted] at h
      exact absurd h (by simp [bind, Except.bind])
  | ok front =>
      rw [hcounted] at h
      have hbumped := (Except.ok.inj h).symm
      obtain ⟨hne, hpieces, n, next, hn, hnext, hcomponents⟩ := counted_parts hcounted
      have hzeros : (List.replicate (v.main.length - (index + 1)) ['0']).map Component.ofText =
          List.replicate (v.main.length - (index + 1)) .zero := List.map_replicate
      -- A zero is one piece more, and holds no separator either.
      have hall : ∀ p ∈ front ++ List.replicate (v.main.length - (index + 1)) ['0'],
          '+' ∉ p ∧ '-' ∉ p ∧ '.' ∉ p := by
        intro p hp
        rcases List.mem_append.mp hp with hp | hp
        · exact hpieces p hp
        · rw [List.eq_of_mem_replicate hp]
          decide
      obtain ⟨hplus, hdash, hjoin⟩ := join_parts (List.append_ne_nil_of_left_ne_nil hne _) hall
      obtain ⟨hmain, hpre, hbuild⟩ := parts_plain hplus hdash
      rw [hbumped]
      refine ⟨n, next, hn, hnext, ?_, hpre, hbuild⟩
      rw [hmain, hjoin, List.map_append, hcomponents, hzeros]

/-- Counting up for an upper end never wraps around: the component of the end is
    the successor as a number of sixty-four bits and as a natural number. -/
theorem upperBound_exact {v upper : Version} {index : Nat} (h : v.upperBound index = .ok upper) :
    ∃ n : UInt64, v.padded index = .number n ∧ (n + 1).toNat = n.toNat + 1 ∧
      upper.main = (List.range index).map v.padded ++ [.number (n + 1)] := by
  obtain ⟨n, next, hn, hnext, hmain, -⟩ := upperBound_parts h
  have hone : (1 : UInt64).toNat = 1 := rfl
  have hsucc : (n + 1).toNat = n.toNat + 1 := by
    rw [UInt64.toNat_add, hone, ← hnext]
    exact Nat.mod_eq_of_lt next.toNat_lt
  have heq : next = n + 1 := UInt64.toNat_inj.mp (hnext.trans hsucc.symm)
  exact ⟨n, hn, hsucc, by rw [hmain, heq]⟩

/-- Only main parts decide what is below a version with the empty pre-release
    and no build. Below that pre-release there is nothing. -/
theorem compare_marker_eq_lt_iff {u : Version} (hpre : u.pre? = some ⟨[]⟩) (hbuild : u.build? = none)
    (w : Version) :
    compare w u = .lt ↔ compare (significant w.main) (significant u.main) = .lt := by
  -- No pre-release is below the empty one, and no build is below none.
  have hrest : (comparePre w.pre? u.pre?).then (compareBuild w.build? u.build?) ≠ .lt := by
    rw [hpre, hbuild]
    cases w.pre? with
    | none => exact fun h => absurd h (by simp [comparePre])
    | some p =>
        obtain ⟨p⟩ := p
        cases p with
        | nil =>
            cases w.build? with
            | none => exact fun h => absurd h (by simp [comparePre, compareBuild])
            | some b => exact fun h => absurd h (by simp [comparePre, compareBuild])
        | cons c p => exact fun h => absurd h (by simp [comparePre])
  rw [compare_eq_nested]
  generalize compare (significant w.main) (significant u.main) = o
  generalize comparePre w.pre? u.pre? = p at *
  generalize compareBuild w.build? u.build? = b at *
  cases o with
  | lt => exact iff_of_true rfl rfl
  | eq =>
      cases p with
      | lt => exact absurd rfl hrest
      | eq => exact iff_of_false hrest (by simp)
      | gt => exact iff_of_false (by simp) (by simp)
  | gt => exact iff_of_false (by simp) (by simp)

/-- What is not below a version has no lesser main part. -/
theorem compare_main_isGE {u w : Version} (h : (compare w u).isGE = true) :
    (compare (significant w.main) (significant u.main)).isGE = true := by
  rw [compare_eq_nested] at h
  generalize compare (significant w.main) (significant u.main) = o at *
  cases o with
  | lt => exact h
  | eq => rfl
  | gt => rfl

/-- Between the ends are those versions that have the same components as the
    lower one up to the index, if no component is the empty text. -/
theorem lt_upperBound_iff {v w upper : Version} {index : Nat} (h : v.upperBound index = .ok upper)
    (hlower : (compare w v.lowerBound).isGE = true) (htext : ∀ c ∈ w.main, c ≠ .text []) :
    compare w upper = .lt ↔ ∀ k ≤ index, w.padded k = v.padded k := by
  obtain ⟨n, next, hn, hnext, hmain, hpre, hbuild⟩ := upperBound_parts h
  have hge := compare_main_isGE hlower
  rw [lowerBound_main] at hge
  have hpadded : ∀ k, PackageIndex.padded (significant w.main) k ≠ .text [] := by
    intro k
    rw [padded_significant, PackageIndex.padded]
    cases hget : w.main[k]? with
    | none => exact fun h => absurd h (by simp [Component.zero])
    | some c => exact htext c (List.mem_of_getElem? hget)
  have hsignificant : PackageIndex.padded (significant v.main) = v.padded :=
    funext fun k => padded_significant v.main k
  have hlast : Component.number next ≠ .zero := by
    intro hzero
    rw [Component.number.inj hzero] at hnext
    exact absurd hnext (Nat.succ_ne_zero _).symm
  have hiff := compare_counted_eq_lt_iff (by rw [hsignificant]; exact hn) hnext hge hpadded
  rw [hsignificant] at hiff
  rw [compare_marker_eq_lt_iff hpre hbuild, hmain, significant_append_singleton _ hlast, hiff]
  refine forall₂_congr fun k _ => ?_
  rw [padded_significant]
  rfl

end Version

end PackageIndex
