import PackageIndex.Proofs.Range.Composition

/-!
# Dashes Behind Words

A dash behind a word of a range asks for pre-releases. Putting dashes behind some
of the words is a change of the text in the middle of it, and two things have to be
seen: that the range still falls into the same alternatives and words, and that
each word still stands for the same tests.

The first is so because a dash is no separator and neither makes one nor takes one
away: it comes behind a character of a word and in front of a blank, of two bars
or of the end (`splitBars_withDashes`, `words_withDashes`). The second is so if no
word ended in a dash before. Of two dashes at the end of a word only the last is
taken off, and the other would belong to the version, where it had asked for
pre-releases before.

## Main definitions

* `Alternative.withDashes`, `Range.withDashes`: A text with dashes put behind some
  of its words.

## Theorems

* `Alternative.words_withDashes`: The words get the dashes.
* `Range.splitBars_withDashes`: The alternatives stay apart.
* `Alternative.comparatorsOf_withDashes`: The tests stay the same.
* `Alternative.dashed_withDashes_iff`: When some word got a dash.
-/

namespace PackageIndex

namespace Alternative

/-- A word with a dash put behind it, if it is chosen. -/
def mark (chosen : Bool) (word : Text) : Text := if chosen then word ++ ['-'] else word

/-- The text of an alternative with dashes put behind the chosen words, which are
    counted from the front. A word ends in front of a blank and at the end. -/
def withDashes (chosen : Nat → Bool) : Text → Text
  | [] => []
  | c :: rest =>
    if !Text.isBlank c && rest.head?.all Text.isBlank then
      mark (chosen 0) [c] ++ withDashes (fun k => chosen (k + 1)) rest
    else c :: withDashes chosen rest

variable {chosen : Nat → Bool} {s : Text}

/-- The last character of a word has the dash behind it. -/
theorem withDashes_end (chosen : Nat → Bool) {c : Char} (hc : Text.isBlank c = false)
    (hs : s.head?.all Text.isBlank = true) :
    withDashes chosen (c :: s) =
      mark (chosen 0) [c] ++ withDashes (fun k => chosen (k + 1)) s := by
  rw [withDashes, if_pos (by rw [hc, hs]; rfl)]

theorem withDashes_inside (chosen : Nat → Bool) {c : Char}
    (h : Text.isBlank c = true ∨ s.head?.all Text.isBlank = false) :
    withDashes chosen (c :: s) = c :: withDashes chosen s := by
  have hends : (!Text.isBlank c && s.head?.all Text.isBlank) = false := by
    rcases h with h | h
    · rw [h, Bool.not_true, Bool.false_and]
    · rw [h, Bool.and_false]
  rw [withDashes, hends, if_neg Bool.false_ne_true]

/-- A character stays where it is, and a dash may come behind it. -/
theorem withDashes_cons_cases (chosen : Nat → Bool) (c : Char) (s : Text) :
    ∃ rest, withDashes chosen (c :: s) = c :: withDashes rest s ∨
      withDashes chosen (c :: s) = c :: '-' :: withDashes rest s := by
  by_cases hends : Text.isBlank c = false ∧ s.head?.all Text.isBlank = true
  · rw [withDashes_end chosen hends.1 hends.2]
    refine ⟨fun k => chosen (k + 1), ?_⟩
    cases chosen 0 with
    | false => exact Or.inl rfl
    | true => exact Or.inr rfl
  · rw [Classical.not_and_iff_not_or_not, Bool.not_eq_false, Bool.not_eq_true] at hends
    exact ⟨chosen, Or.inl (withDashes_inside chosen hends)⟩

theorem head?_withDashes (chosen : Nat → Bool) (s : Text) :
    (withDashes chosen s).head? = s.head? := by
  cases s with
  | nil => rfl
  | cons c s =>
      obtain ⟨rest, h | h⟩ := withDashes_cons_cases chosen c s
      · rw [h]
        rfl
      · rw [h]
        rfl

theorem mem_of_mem_withDashes {c : Char} (hc : c ≠ '-') (h : c ∈ withDashes chosen s) : c ∈ s := by
  induction s generalizing chosen with
  | nil => exact h
  | cons d s ih =>
      obtain ⟨rest, hcons | hcons⟩ := withDashes_cons_cases chosen d s
      · rw [hcons] at h
        rcases List.mem_cons.mp h with rfl | h
        · exact List.mem_cons_self
        · exact List.mem_cons_of_mem _ (ih h)
      · rw [hcons] at h
        rcases List.mem_cons.mp h with rfl | h
        · exact List.mem_cons_self
        · exact List.mem_cons_of_mem _ (ih (List.mem_of_ne_of_mem hc h))

/-- A text with dashes ends as it did or in a dash. -/
theorem getLast?_withDashes (chosen : Nat → Bool) (s : Text) :
    (withDashes chosen s).getLast? = s.getLast? ∨ (withDashes chosen s).getLast? = some '-' := by
  induction s generalizing chosen with
  | nil => exact Or.inl rfl
  | cons c s ih =>
      obtain ⟨rest, hcons | hcons⟩ := withDashes_cons_cases chosen c s
      · rw [hcons, List.getLast?_cons, List.getLast?_cons]
        rcases ih rest with h | h
        · exact Or.inl (by rw [h])
        · exact Or.inr (by rw [h, Option.getD_some])
      · rw [hcons, List.getLast?_cons, List.getLast?_cons, List.getLast?_cons, Option.getD_some]
        rcases ih rest with h | h
        · rw [h]
          cases s.getLast? with
          | none => exact Or.inr rfl
          | some d => exact Or.inl rfl
        · exact Or.inr (by rw [h, Option.getD_some])

/-- Dashes make no separator in a single alternative. -/
theorem splitBars_eq_self_withDashes (h : Range.splitBars s = [s]) :
    Range.splitBars (withDashes chosen s) = [withDashes chosen s] := by
  induction s generalizing chosen with
  | nil => rfl
  | cons c s ih =>
      rw [Range.splitBars_cons_eq_self_iff] at h
      obtain ⟨rest, hcons | hcons⟩ := withDashes_cons_cases chosen c s
      · rw [hcons, Range.splitBars_cons_eq_self_iff, head?_withDashes]
        exact ⟨h.1, ih h.2⟩
      · rw [hcons, Range.splitBars_cons_eq_self_iff, Range.splitBars_cons_eq_self_iff]
        exact ⟨fun _ hdash => absurd hdash (by simp), fun hdash => absurd hdash (by decide), ih h.2⟩

theorem append_mark (chosen : Bool) (run word : Text) :
    run ++ mark chosen word = mark chosen (run ++ word) := by
  cases chosen with
  | false => rfl
  | true => exact (List.append_assoc run word ['-']).symm

theorem mark_ne_nil {word : Text} (h : word ≠ []) (chosen : Bool) : mark chosen word ≠ [] := by
  cases chosen with
  | false => exact h
  | true => exact List.append_ne_nil_of_left_ne_nil h ['-']

theorem mark_no_blank {word : Text} (h : ∀ c ∈ word, Text.isBlank c = false) (chosen : Bool) :
    ∀ c ∈ mark chosen word, Text.isBlank c = false := by
  cases chosen with
  | false => exact h
  | true =>
      refine List.forall_mem_append.mpr ⟨h, List.forall_mem_singleton.mpr ?_⟩
      decide

/-- A run that goes on in the text is still its first word, so it is the one that
    is marked first. -/
theorem wordsFrom_withDashes (chosen : Nat → Bool) (s : Text) {run : Text}
    (hrun : run = [] ∨ s.head?.all Text.isBlank = false) :
    Text.wordsFrom run (withDashes chosen s) =
      (Text.wordsFrom run s).mapIdx fun k => mark (chosen k) := by
  induction s generalizing chosen run with
  | nil =>
      rcases hrun with rfl | hrun
      · rfl
      · exact absurd hrun (by decide)
  | cons c s ih =>
      cases hc : Text.isBlank c with
      | true =>
          have hnil : run = [] := hrun.resolve_right fun h => by
            rw [List.head?_cons, Option.all_some, hc] at h
            exact Bool.noConfusion h
          rw [withDashes_inside chosen (Or.inl hc), hnil, Text.wordsFrom, if_pos hc,
            if_pos List.isEmpty_nil, Text.wordsFrom, if_pos hc, if_pos List.isEmpty_nil]
          exact ih chosen (Or.inl rfl)
      | false =>
          rw [Text.wordsFrom_cons hc]
          cases hends : s.head?.all Text.isBlank with
          | false =>
              rw [withDashes_inside chosen (Or.inr hends), Text.wordsFrom_cons hc]
              exact ih chosen (Or.inr hends)
          | true =>
              -- The word ends here, with its dash if it is to have one.
              have hne : run ++ [c] ≠ [] :=
                List.append_ne_nil_of_right_ne_nil run (List.cons_ne_nil c [])
              have hmark := mark_no_blank (List.forall_mem_singleton.mpr hc) (chosen 0)
              rw [withDashes_end chosen hc hends, Text.wordsFrom_append hmark, append_mark,
                Text.wordsFrom_ended (mark_ne_nil hne (chosen 0)) (by rw [head?_withDashes, hends]),
                Text.wordsFrom_ended hne hends, List.mapIdx_cons]
              exact congrArg _ (ih _ (Or.inl rfl))

/-- The words are those of the text, and the chosen ones have a dash behind them. -/
theorem words_withDashes (chosen : Nat → Bool) (s : Text) :
    Text.words (withDashes chosen s) = (Text.words s).mapIdx fun k => mark (chosen k) :=
  wordsFrom_withDashes chosen s (Or.inl rfl)

/-- The dash that is put behind a word is the one that is taken off. -/
theorem splitDash_mark {word : Text} (h : word.getLast? ≠ some '-') (chosen : Bool) :
    splitDash (mark chosen word) = (word, chosen) := by
  cases chosen with
  | false => rw [mark, if_neg Bool.false_ne_true, splitDash, if_neg h]
  | true => rw [mark, if_pos rfl, splitDash, if_pos List.getLast?_concat, List.dropLast_concat]

theorem map_splitDash_mark {words : List Text} (h : ∀ word ∈ words, word.getLast? ≠ some '-')
    (chosen : Nat → Bool) :
    (words.mapIdx fun k => mark (chosen k)).map splitDash =
      words.mapIdx fun k word => (word, chosen k) := by
  induction words generalizing chosen with
  | nil => rfl
  | cons word words ih =>
      rw [List.mapIdx_cons, List.mapIdx_cons, List.map_cons,
        splitDash_mark (h word List.mem_cons_self),
        ih fun other hother => h other (List.mem_cons_of_mem _ hother)]

/-- Without a choice nothing changes. -/
theorem withDashes_none (s : Text) : withDashes (fun _ => false) s = s := by
  induction s with
  | nil => rfl
  | cons c s ih =>
      by_cases hends : (!Text.isBlank c && s.head?.all Text.isBlank) = true
      · rw [withDashes, if_pos hends, ih]
        rfl
      · rw [withDashes, if_neg hends, ih]

/-- The tests are those the words stand for without the dashes. -/
theorem comparatorsOf_withDashes (h : ∀ word ∈ Text.words s, word.getLast? ≠ some '-')
    (chosen : Nat → Bool) :
    comparatorsOf (Text.words (withDashes chosen s)) = comparatorsOf (Text.words s) := by
  have hbare : ∀ chosen : Nat → Bool, comparatorsOf (Text.words (withDashes chosen s)) =
      ((Text.words s).mapM Comparator.ofWord).map List.flatten := by
    intro chosen
    have hwords : ((Text.words s).mapIdx fun k word => (word, chosen k)).map Prod.fst =
        Text.words s := by
      apply List.ext_getElem?
      intro k
      rw [List.getElem?_map, List.getElem?_mapIdx, Option.map_map]
      exact Option.map_id'
    have htests := List.mapM_map (f := Prod.fst) (g := Comparator.ofWord)
      (l := (Text.words s).mapIdx fun k word => (word, chosen k))
    rw [hwords] at htests
    rw [comparatorsOf, words_withDashes, map_splitDash_mark h]
    exact congrArg (Except.map List.flatten) htests.symm
  -- The text itself is the one with no dash put anywhere.
  have hplain := hbare fun _ => false
  rw [withDashes_none] at hplain
  rw [hbare, hplain]

/-- A word ends in a dash if one was put behind it. -/
theorem dashed_withDashes_iff (h : ∀ word ∈ Text.words s, word.getLast? ≠ some '-')
    (chosen : Nat → Bool) :
    dashed (Text.words (withDashes chosen s)) = true ↔
      ∃ k < (Text.words s).length, chosen k = true := by
  rw [dashed, words_withDashes, map_splitDash_mark h, List.any_eq_true]
  constructor
  · rintro ⟨pair, hpair, hchosen⟩
    obtain ⟨k, hk, rfl⟩ := List.mem_mapIdx.mp hpair
    exact ⟨k, hk, hchosen⟩
  · rintro ⟨k, hk, hchosen⟩
    exact ⟨_, List.mem_mapIdx.mpr ⟨k, hk, rfl⟩, hchosen⟩

/-- An alternative with dashes has the tests it has without them, and asks for
    pre-releases if the range does or a word was chosen. -/
theorem parse_withDashes (h : ∀ word ∈ Text.words s, word.getLast? ≠ some '-')
    (chosen : Nat → Bool) (optsIn : Bool) :
    parse (withDashes chosen s) optsIn = (comparatorsOf (Text.words s)).map
      (⟨·, optsIn || dashed (Text.words (withDashes chosen s))⟩) := by
  rw [parse_eq, comparatorsOf_withDashes h]

end Alternative

namespace Range

/-- The text of a range with dashes put behind the chosen words of each of its
    alternatives, which are counted from the front as their words are. -/
def withDashes (chosen : Nat → Nat → Bool) (s : Text) : Text :=
  Text.join ['|', '|'] ((splitBars s).mapIdx fun k => Alternative.withDashes (chosen k))

variable {s : Text}

theorem splitBars_withDashes (chosen : Nat → Nat → Bool) (s : Text) :
    splitBars (withDashes chosen s) =
      (splitBars s).mapIdx fun k => Alternative.withDashes (chosen k) := by
  refine splitBars_join ?_ (fun a ha => ?_) ?_
  · exact fun h => splitBars_ne_nil s (List.mapIdx_eq_nil_iff.mp h)
  · obtain ⟨k, hk, rfl⟩ := List.mem_mapIdx.mp ha
    exact Alternative.splitBars_eq_self_withDashes (splitBars_of_mem (List.getElem_mem hk))
  · -- In front of the last alternative none ended in a bar.
    have hlast : ∀ a ∈ (splitBars s).dropLast, a.getLast? ≠ some '|' :=
      fun a ha => getLast?_of_mem_dropLast ha
    rcases List.eq_nil_or_concat (splitBars s) with hnil | ⟨front, last, hs⟩
    · exact absurd hnil (splitBars_ne_nil s)
    · rw [hs, List.concat_eq_append] at hlast ⊢
      rw [List.dropLast_concat] at hlast
      rw [List.mapIdx_concat, List.dropLast_concat]
      intro a ha
      obtain ⟨k, hk, rfl⟩ := List.mem_mapIdx.mp ha
      rcases Alternative.getLast?_withDashes (chosen k) front[k] with h | h
      · rw [h]
        exact hlast _ (List.getElem_mem hk)
      · rw [h]
        decide

example : splitBars (withDashes (fun k j => k + j == 1) "1 <2||3 4".toList) =
    ["1 <2-".toList, "3- 4".toList] := rfl

theorem withDashes_none (s : Text) : withDashes (fun _ _ => false) s = s := by
  have hsame : ((splitBars s).mapIdx fun _ => Alternative.withDashes fun _ => false) =
      splitBars s := by
    apply List.ext_getElem?
    intro k
    rw [List.getElem?_mapIdx, funext Alternative.withDashes_none]
    exact Option.map_id'
  rw [withDashes, hsame, join_splitBars]

theorem comma_withDashes (h : ',' ∉ s) (chosen : Nat → Nat → Bool) : ',' ∉ withDashes chosen s := by
  intro hmem
  rcases Text.mem_join hmem with hmem | ⟨piece, hpiece, hmem⟩
  · exact absurd hmem (by decide)
  · obtain ⟨k, hk, rfl⟩ := List.mem_mapIdx.mp hpiece
    have halternative := Text.infix_join ['|', '|'] (List.getElem_mem hk)
    rw [join_splitBars] at halternative
    exact h (halternative.subset (Alternative.mem_of_mem_withDashes (by decide) hmem))

end Range

end PackageIndex
