import PackageIndex.Proofs.Outcome
import PackageIndex.Proofs.Version.Bound
import PackageIndex.Range.Basic

/-!
# What Makes a Range Malformed

Reading a range can fail in two ways only, and both are a matter of a single
word. An operator may stand alone, with no version behind it, or a tilde or a
caret may pin a component that cannot be counted up. `Malformed` says which
words these are, and how each of them is refused.

Every other word is fine: any text behind a comparison is a version, and so is
any text with no operator. That includes what is left when the dash at the end
of a word has been taken off, which may be nothing at all.

A range is refused for the leftmost malformed word of all its alternatives
(`parse_eq_error_iff`). Alternatives are read one after the other and words
within an alternative one after the other, so two loops stop at the first
refusal, and what they stop at is the first refusal of the words written in a
row.

## Main definitions

* `Operator.signs`: The operators as they are written.
* `Comparator.Malformed`: A word that is refused, and how.
* `Range.words`: The words of all alternatives in a row.

## Theorems

* `ofWord_eq_error_iff`: The words that are refused are the malformed ones.
* `parse_eq_error_iff`: A range is refused for its leftmost malformed word.
* `parse_refuses_malformed`: When a range is refused, and how.
-/

namespace PackageIndex

namespace Operator

/-- The operators as they are written. -/
def signs : List Text := [['>', '='], ['<', '='], ['>'], ['<'], ['^'], ['~'], ['=']]

/-- Nothing follows the operator if the word is an operator and nothing else. -/
theorem read_body_eq_nil_iff {word : Text} (hne : word ≠ []) :
    (read word).2 = [] ↔ word ∈ signs := by
  unfold read signs
  split <;> simp_all

theorem read_eq_tilde_iff (word body : Text) : read word = (.tilde, body) ↔ word = '~' :: body := by
  unfold read
  split <;> simp_all

theorem read_eq_caret_iff (word body : Text) : read word = (.caret, body) ↔ word = '^' :: body := by
  unfold read
  split <;> simp_all

end Operator

namespace Comparator

/-- A word that is refused, and how: an operator that stands alone, or a tilde or
    a caret in front of a version whose pinned component has no successor. A tilde
    pins the second component if there is one, and else the first. A caret pins the
    first component that is not zero, or the one behind the last if all are. -/
inductive Malformed : Text → Refusal → Prop
  | bare {sign : Text} (h : sign ∈ Operator.signs) : Malformed sign (.missingVersion sign)
  | tilde {body : Text} (hne : body ≠ [])
      (h : Version.Uncountable ⟨body⟩ (if 1 < (Version.main ⟨body⟩).length then 1 else 0)) :
      Malformed ('~' :: body)
        (.notNumeric body (if 1 < (Version.main ⟨body⟩).length then 1 else 0))
  | caret {body : Text} (hne : body ≠ [])
      (h : Version.Uncountable ⟨body⟩ ((Version.main ⟨body⟩).findIdx (· ≠ .zero))) :
      Malformed ('^' :: body)
        (.notNumeric body ((Version.main ⟨body⟩).findIdx (· ≠ .zero)))

/-- Both ends of an interval are refused when there is no upper one. -/
theorem pinned_eq_error_iff (v : Version) (index : Nat) (refusal : Refusal) :
    pinned v index = .error refusal ↔
      v.Uncountable index ∧ refusal = .notNumeric v.text index := by
  rw [← Version.upperBound_eq_error_iff, pinned, bind_pure_eq_error_iff]

/-- The words that ask for any version are not malformed. -/
theorem not_malformed_any {word : Text} (hword : word = [] ∨ word = ['*']) (refusal : Refusal) :
    ¬Malformed word refusal := by
  intro h
  cases h with
  | bare hsign => rcases hword with rfl | rfl <;> exact absurd hsign (by decide)
  | tilde hne h => rcases hword with hword | hword <;> exact absurd hword (by simp)
  | caret hne h => rcases hword with hword | hword <;> exact absurd hword (by simp)

/-- A malformed word with something behind its operator has a tilde or a caret,
    and pins a component without a successor. -/
theorem malformed_iff_of_body {word : Text} (hword : word ∉ Operator.signs) (refusal : Refusal) :
    Malformed word refusal ↔
      (∃ body, Operator.read word = (.tilde, body) ∧
        pinned ⟨body⟩ (Operator.tildeIndex ⟨body⟩) = .error refusal) ∨
      ∃ body, Operator.read word = (.caret, body) ∧
        pinned ⟨body⟩ (Operator.caretIndex ⟨body⟩) = .error refusal := by
  simp only [Operator.read_eq_tilde_iff, Operator.read_eq_caret_iff, pinned_eq_error_iff]
  constructor
  · intro h
    cases h with
    | bare hsign => exact absurd hsign hword
    | tilde hne h => exact Or.inl ⟨_, rfl, h, rfl⟩
    | caret hne h => exact Or.inr ⟨_, rfl, h, rfl⟩
  · intro h
    rcases h with ⟨body, rfl, h, rfl⟩ | ⟨body, rfl, h, rfl⟩
    -- With nothing behind it the operator would be all of the word.
    · exact .tilde (fun hnil => hword (by rw [hnil]; decide)) h
    · exact .caret (fun hnil => hword (by rw [hnil]; decide)) h

theorem ofWord_eq_error_iff (word : Text) (refusal : Refusal) :
    ofWord word = .error refusal ↔ Malformed word refusal := by
  unfold ofWord
  by_cases hany : (word.isEmpty || word == ['*']) = true
  · rw [if_pos hany]
    refine iff_of_false (fun h => absurd h (by simp)) (not_malformed_any ?_ refusal)
    simpa using hany
  rw [if_neg hany]
  have hne : word ≠ [] := by
    intro hnil
    rw [hnil] at hany
    exact hany rfl
  cases hread : Operator.read word with
  | mk operator body =>
      have hbody : body = [] ↔ word ∈ Operator.signs := by
        rw [← Operator.read_body_eq_nil_iff hne, hread]
      cases body with
      | nil =>
          -- Nothing stands behind the operator.
          have hsign := hbody.mp rfl
          change Except.error (.missingVersion word) = .error refusal ↔ _
          constructor
          · intro h
            rw [← Except.error.inj h]
            exact .bare hsign
          · intro h
            cases h with
            | bare _ => rfl
            | tilde hfull _ => exact absurd hsign (by simpa [Operator.signs] using hfull)
            | caret hfull _ => exact absurd hsign (by simpa [Operator.signs] using hfull)
      | cons c body =>
          have hsign : word ∉ Operator.signs := fun h => absurd (hbody.mpr h) (by simp)
          rw [malformed_iff_of_body hsign, hread]
          cases operator with
          | relation r =>
              -- A comparison takes any version.
              refine iff_of_false (fun h => ?_) (by simp)
              cases r <;> exact absurd h (by simp [Version.parse, bind, Except.bind, pure, Except.pure])
          | tilde =>
              change pinned ⟨c :: body⟩ _ = .error refusal ↔ _
              simp
          | caret =>
              change pinned ⟨c :: body⟩ _ = .error refusal ↔ _
              simp

end Comparator

namespace Range

/-- The words of all alternatives in a row, without the dashes at their ends. -/
def words (s : Text) : List Text :=
  (splitBars (alternativesText s)).flatMap fun alternative =>
    (Text.words alternative).map fun word => (Alternative.splitDash word).1

theorem alternative_eq_error_iff (s : Text) (optsIn : Bool) (refusal : Refusal) :
    Alternative.parse s optsIn = .error refusal ↔
      ((Text.words s).map fun word => (Alternative.splitDash word).1).mapM Comparator.ofWord =
        .error refusal := by
  rw [Alternative.parse, List.mapM_map, List.mapM_map]
  exact bind_pure_eq_error_iff _ _ _

/-- A range is refused as the words of all its alternatives are. -/
theorem parse_eq_mapM_error_iff (s : Text) (refusal : Refusal) :
    parse s = .error refusal ↔ (words s).mapM Comparator.ofWord = .error refusal := by
  rw [words, ← mapM_flatMap_eq_error_iff fun a e => alternative_eq_error_iff a (optsIn s) e, parse,
    bind_pure_eq_error_iff]

theorem parse_eq_error_iff (s : Text) (refusal : Refusal) :
    parse s = .error refusal ↔ ∃ front word back, words s = front ++ word :: back ∧
      (∀ w ∈ front, ∀ other, ¬Comparator.Malformed w other) ∧
        Comparator.Malformed word refusal := by
  rw [parse_eq_mapM_error_iff, mapM_eq_error_iff]
  simp only [ne_eq, Comparator.ofWord_eq_error_iff]

theorem words_alternativesText (s : Text) : words (alternativesText s) = words s := by
  have hcut : alternativesText (alternativesText s) = alternativesText s := by
    unfold alternativesText
    rw [Text.cut_eq_of_not_mem (Text.not_mem_cut ',' s)]
  rw [words, hcut, words]

theorem parse_ne_emptyVersion (s : Text) : parse s ≠ .error .emptyVersion := by
  rw [ne_eq, parse_eq_error_iff]
  rintro ⟨front, word, back, -, -, hword⟩
  cases hword

/-- A range is refused if and only if one of its words is malformed, and for the
    leftmost one. What stands behind the first comma plays no part in it, no
    version is ever empty, and where a component is counted up, the number does
    not wrap around. -/
theorem parse_refuses_malformed :
    (∀ s, (∃ refusal, parse s = .error refusal) ↔
      ∃ word ∈ words s, ∃ refusal, Comparator.Malformed word refusal) ∧
    (∀ s refusal, parse s = .error refusal ↔ ∃ front word back, words s = front ++ word :: back ∧
      (∀ w ∈ front, ∀ other, ¬Comparator.Malformed w other) ∧
        Comparator.Malformed word refusal) ∧
    (∀ s, parse s ≠ .error .emptyVersion) ∧
    (∀ s refusal, parse s = .error refusal ↔ parse (alternativesText s) = .error refusal) ∧
    (∀ (v upper : Version) (index : Nat), v.upperBound index = .ok upper →
      ∃ n : UInt64, v.padded index = .number n ∧ (n + 1).toNat = n.toNat + 1 ∧
        upper.main = (List.range index).map v.padded ++ [.number (n + 1)]) := by
  refine ⟨fun s => ?_, parse_eq_error_iff, parse_ne_emptyVersion, fun s refusal => ?_,
    fun v upper index h => Version.upperBound_exact h⟩
  · simp only [parse_eq_mapM_error_iff, exists_mapM_eq_error_iff, Comparator.ofWord_eq_error_iff]
  · rw [parse_eq_mapM_error_iff, parse_eq_mapM_error_iff, words_alternativesText]

/-- Of two malformed words the left one is reported, without the one dash that is
    taken off its end, and the greatest number that has a successor is counted
    up. -/
theorem parse_refuses_malformed_caret :
    parse ">=1 ^0.18446744073709551615-- || >=-, loose".toList =
        .error (.notNumeric "0.18446744073709551615-".toList 1) ∧
      ∃ n : UInt64, Version.padded ⟨"1.18446744073709551614".toList⟩ 1 = .number n ∧
        (n + 1).toNat = n.toNat + 1 := by
  rcases parse_refuses_malformed with ⟨-, hfirst, -, -, hexact⟩
  constructor
  · refine (hfirst _ _).mpr ⟨[">=1".toList], "^0.18446744073709551615-".toList, [">=".toList],
      rfl, ?_, .caret (by decide) (Or.inr rfl)⟩
    intro w hw other hmalformed
    rw [List.mem_singleton.mp hw] at hmalformed
    cases hmalformed with
    | bare hsign => exact absurd hsign (by decide)
  · obtain ⟨n, hn, hsucc, -⟩ := hexact ⟨"1.18446744073709551614".toList⟩
      ⟨"1.18446744073709551615-".toList⟩ 1 rfl
    exact ⟨n, hn, hsucc⟩

end Range

end PackageIndex
