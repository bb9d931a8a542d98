import PackageIndex.Proofs.Range.Words
import PackageIndex.Proofs.Version.Bound

/-!
# Tilde and Caret Ranges

A range of a single word with a tilde or a caret is the interval between the
two ends that are made of its version. Which versions lie in it can be said
without those ends: they are not below the lower one, and they have the same
components as the version up to the one that is pinned (`contains_pinned`). A
component that is missing on either side counts as zero.

That is so for pre-releases and builds on both sides, since the upper end is
below every pre-release of its own main part. One kind of version has to be
left out. The empty text is less than any number, so a version that has an
empty component may lie between the ends by having less than the other.

## Main definitions

* `Range.Pins`: A range holds the versions that share components up to an
  index.

## Theorems

* `pins_of_upperBound`: The ends made of a version pin its components.
* `contains_pinned`: What lies in a tilde or a caret range.
-/

namespace PackageIndex

namespace Range

/-- A range holds the versions that are not below a version and share its
    components up to an index, a missing one being zero. Versions with an empty
    component are left out of account. -/
def Pins (r : Range) (v : Version) (index : Nat) : Prop :=
  ∀ w : Version, (∀ c ∈ w.main, c ≠ .text []) →
    (r.contains w (some true) = true ↔ (compare w v.lowerBound).isGE = true ∧
      ∀ k ≤ index, (w.component? k).getD .zero = (v.component? k).getD .zero)

/-- The ends made of a version pin its components. -/
theorem pins_of_upperBound {v upper : Version} {index : Nat} (h : v.upperBound index = .ok upper)
    (text : Text) : Pins ⟨text, [⟨[⟨.ge, v.lowerBound⟩, ⟨.lt, upper⟩], false⟩]⟩ v index := by
  intro w htext
  -- With this setting a pre-release is let in like any other version.
  rw [contains_interval_iff, and_iff_right fun _ => rfl, Ordering.isGE_iff_ne_lt]
  exact and_congr_right fun hlower =>
    Version.lt_upperBound_iff h (Ordering.isGE_iff_ne_lt.mpr hlower) htext

/-- A text without separators behind a tilde or a caret is one word still. -/
theorem parse_operator {sign : Char} (hsign : sign = '~' ∨ sign = '^') {s : Text}
    (hblank : ∀ c ∈ s, Text.isBlank c = false) (hcomma : ',' ∉ s) (hbars : ¬['|', '|'] <:+: s)
    (hdash : s.getLast? ≠ some '-') :
    parse (sign :: s) =
      (Comparator.ofWord (sign :: s)).map fun cs => ⟨sign :: s, [⟨cs, false⟩]⟩ := by
  have hplain : Plain s := ⟨hblank, hcomma, hbars⟩
  have hsigns : sign ∈ ['=', '<', '>', '~', '^'] ∧ sign ≠ '-' := by
    rcases hsign with rfl | rfl <;> decide
  refine parse_word ⟨hplain.signed hsigns.1, List.cons_ne_nil _ _, ?_⟩
  cases s with
  | nil => exact fun h => hsigns.2 (Option.some.inj h)
  | cons c s => rwa [List.getLast?_cons_cons]

/-- Behind a tilde or a caret there must be a version, and its index is pinned. -/
theorem ofWord_tilde (s : Text) : Comparator.ofWord ('~' :: s) =
    if s.isEmpty then .error (.missingVersion ('~' :: s))
    else Comparator.pinned ⟨s⟩ (Operator.tildeIndex ⟨s⟩) := by
  cases s <;> rfl

theorem ofWord_caret (s : Text) : Comparator.ofWord ('^' :: s) =
    if s.isEmpty then .error (.missingVersion ('^' :: s))
    else Comparator.pinned ⟨s⟩ (Operator.caretIndex ⟨s⟩) := by
  cases s <;> rfl

/-- A range of a word that pins an index is the interval between the two ends. -/
theorem interval_of_word {word : Text} {v : Version} {index : Nat} {r : Range} {refusal : Refusal}
    {missing : Bool}
    (h : ((if missing then .error refusal else Comparator.pinned v index).map
      fun cs => (⟨word, [⟨cs, false⟩]⟩ : Range)) = .ok r) :
    ∃ upper, v.upperBound index = .ok upper ∧
      r = ⟨word, [⟨[⟨.ge, v.lowerBound⟩, ⟨.lt, upper⟩], false⟩]⟩ := by
  cases missing with
  | true => exact absurd h (by simp [Except.map])
  | false =>
      rw [if_neg Bool.false_ne_true, Comparator.pinned] at h
      cases hupper : v.upperBound index with
      | error refusal =>
          rw [hupper] at h
          exact absurd h (by simp [Except.map, bind, Except.bind])
      | ok upper =>
          rw [hupper] at h
          exact ⟨upper, rfl, (Except.ok.inj h).symm⟩

/-- What is pinned by the word of a range is pinned by the range. -/
theorem pins_of_word {word : Text} {v : Version} {index : Nat} {r : Range} {refusal : Refusal}
    {missing : Bool}
    (h : ((if missing then .error refusal else Comparator.pinned v index).map
      fun cs => (⟨word, [⟨cs, false⟩]⟩ : Range)) = .ok r) : r.Pins v index := by
  rcases interval_of_word h with ⟨upper, hupper, rfl⟩
  exact pins_of_upperBound hupper word

/-- A tilde range holds the versions from its version on that have the same
    first two components, or the same first one if there is no second. A caret
    range holds those with the same components up to the first that is not
    zero, or up to the one behind the last if all are. -/
theorem contains_pinned (s : Text) (hblank : ∀ c ∈ s, Text.isBlank c = false) (hcomma : ',' ∉ s)
    (hbars : ¬['|', '|'] <:+: s) (hdash : s.getLast? ≠ some '-') :
    (∀ r, parse ('~' :: s) = .ok r →
      r.Pins ⟨s⟩ (if 1 < (Version.main ⟨s⟩).length then 1 else 0)) ∧
      ∀ r, parse ('^' :: s) = .ok r → r.Pins ⟨s⟩ ((Version.main ⟨s⟩).findIdx (· ≠ .zero)) := by
  constructor
  · intro r hr
    rw [parse_operator (Or.inl rfl) hblank hcomma hbars hdash, ofWord_tilde] at hr
    exact pins_of_word hr
  · intro r hr
    rw [parse_operator (Or.inr rfl) hblank hcomma hbars hdash, ofWord_caret] at hr
    exact pins_of_word hr

/-- A pre-release of `1.2.9` lies in the tilde range of `1.2.3`, and one of `1.3`
    does not. -/
theorem contains_pinned_tilde :
    parse "~1.2.3".toList = .ok ⟨"~1.2.3".toList,
        [⟨[⟨.ge, ⟨"1.2.3-".toList⟩⟩, ⟨.lt, ⟨"1.3-".toList⟩⟩], false⟩]⟩ ∧
      contains ⟨"~1.2.3".toList, [⟨[⟨.ge, ⟨"1.2.3-".toList⟩⟩, ⟨.lt, ⟨"1.3-".toList⟩⟩], false⟩]⟩
        ⟨"1.2.9-rc.1".toList⟩ (some true) = true ∧
      contains ⟨"~1.2.3".toList, [⟨[⟨.ge, ⟨"1.2.3-".toList⟩⟩, ⟨.lt, ⟨"1.3-".toList⟩⟩], false⟩]⟩
        ⟨"1.3-rc.1".toList⟩ (some true) = false := by
  have hparse : parse "~1.2.3".toList = .ok ⟨"~1.2.3".toList,
      [⟨[⟨.ge, ⟨"1.2.3-".toList⟩⟩, ⟨.lt, ⟨"1.3-".toList⟩⟩], false⟩]⟩ := by rfl
  have hblank : ∀ c ∈ "1.2.3".toList, Text.isBlank c = false := by
    intro c hc
    change c ∈ ['1', '.', '2', '.', '3'] at hc
    simp only [List.mem_cons, List.not_mem_nil, or_false] at hc
    rcases hc with rfl | rfl | rfl | rfl | rfl <;> decide
  have hpins := (contains_pinned "1.2.3".toList hblank (by decide) (by decide) (by decide)).1 _ hparse
  refine ⟨hparse, (hpins ⟨"1.2.9-rc.1".toList⟩ (by decide)).mpr (by decide), ?_⟩
  rw [← Bool.not_eq_true, hpins ⟨"1.3-rc.1".toList⟩ (by decide)]
  decide

end Range

end PackageIndex
