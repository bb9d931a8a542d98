import PackageIndex.Proofs.Range.Words
import PackageIndex.Proofs.Version.Gap

/-!
# Words That Ask for Nothing

A star stands for the test that a version is not below the least one. What makes
the least version the least is that nothing of it is significant: its main part is
all zeros, its pre-release is the empty one, and it has no build. A main part with
no significant component is below every other, one that begins with an empty text
included, although that is less than zero. The empty pre-release is below every
other, and no build is below any (`zero_isLE`).

So a star keeps no version out. It can be put anywhere among the words of an
alternative and taken away again, and what the other words say is not touched: the
same versions pass, or the same word is refused (`map_passes_unstarred`). A star
with a dash behind it is another word, which asks for pre-releases.

## Main definitions

* `Alternative.unstarred`: Words without the stars among them.
* `Alternative.passes`: What passes some tests.

## Theorems

* `zero_isLE`: No version is below the least one.
* `map_passes_unstarred`: Stars among words do not matter.
* `map_accepts_congr`: Alternatives that differ in stars accept the same.
* `star_neutral`: What the least version means for ranges.
-/

namespace PackageIndex

namespace Text

/-- A text that is all blank has no words. -/
theorem words_of_blank {s : Text} (hs : ∀ c ∈ s, isBlank c = true) : words s = [] := by
  induction s with
  | nil => rfl
  | cons c s ih =>
      have hcons : words (c :: s) = words s :=
        words_append_blank (x := []) (hs c List.mem_cons_self) s
      rw [hcons]
      exact ih fun d hd => hs d (List.mem_cons_of_mem c hd)

end Text

namespace Version

/-- No version is below the least one. -/
theorem zero_isLE (w : Version) : (compare zero w).isLE = true := by
  have hnothing : significant zero.main = [] := rfl
  rw [isLE_swap_iff, ne_eq, compare_marker_eq_lt_iff rfl rfl, hnothing]
  -- No main part is below the one with nothing in it.
  cases significant w.main with
  | nil => decide
  | cons c cs => simp [List.compare_cons_nil]

end Version

namespace Alternative

/-- Words without the stars among them. -/
def unstarred (words : List Text) : List Text := words.filter (· ≠ ['*'])

/-- What passes some tests. -/
def passes (cs : List Comparator) (v : Version) : Bool := cs.all (·.accepts v)

/-- Every version passes the test that a star stands for. -/
theorem passes_star (cs : List Comparator) : passes (⟨.ge, .zero⟩ :: cs) = passes cs := by
  funext v
  have hleast : Comparator.accepts ⟨.ge, .zero⟩ v = true :=
    Std.OrientedCmp.isGE_of_isLE (Version.zero_isLE v)
  rw [passes, passes, List.all_cons, hleast, Bool.true_and]

/-- What passes the tests of two texts passes those of either. -/
theorem map_passes_append (cs : List Comparator) (behind : Except Refusal (List Comparator)) :
    (behind.map (cs ++ ·)).map passes =
      (behind.map passes).map fun passing v => passes cs v && passing v := by
  cases behind with
  | error refusal => rfl
  | ok ds => exact congrArg Except.ok (funext fun v => List.all_append)

/-- Stars among words change neither what passes nor what is refused. -/
theorem map_passes_unstarred (words : List Text) :
    (comparatorsOf words).map passes = (comparatorsOf (unstarred words)).map passes := by
  induction words with
  | nil => rfl
  | cons word words ih =>
      have hcons := comparatorsOf_append [word]
      simp only [List.singleton_append] at hcons
      unfold unstarred at ih ⊢
      by_cases hstar : word = ['*']
      · have hone : comparatorsOf [word] = .ok [⟨.ge, .zero⟩] := by rw [hstar]; rfl
        rw [List.filter_cons_of_neg (by simp [hstar]), hcons, hone, ← ih]
        cases comparatorsOf words with
        | error refusal => rfl
        | ok cs => exact congrArg Except.ok (passes_star cs)
      · rw [List.filter_cons_of_pos (by simp [hstar]), hcons words, hcons (words.filter _)]
        cases comparatorsOf [word] with
        | error refusal => rfl
        | ok cs =>
            -- The tests of the word in front are the same on both sides.
            change ((comparatorsOf words).map (cs ++ ·)).map passes =
              ((comparatorsOf (words.filter _)).map (cs ++ ·)).map passes
            rw [map_passes_append, map_passes_append, ih]

/-- A star does not end in a dash. -/
theorem dashed_unstarred (words : List Text) : dashed (unstarred words) = dashed words := by
  induction words with
  | nil => rfl
  | cons word words ih =>
      have hcons := dashed_append [word]
      simp only [List.singleton_append] at hcons
      unfold unstarred at ih ⊢
      by_cases hstar : word = ['*']
      · have hone : dashed [word] = false := by rw [hstar]; rfl
        rw [List.filter_cons_of_neg (by simp [hstar]), hcons, hone, Bool.false_or, ih]
      · rw [List.filter_cons_of_pos (by simp [hstar]), hcons words, hcons (words.filter _), ih]

/-- What an alternative accepts is what passes its tests and is let in. -/
theorem map_accepts_parse (s : Text) (optsIn : Bool) :
    (parse s optsIn).map accepts = ((comparatorsOf (Text.words s)).map passes).map
      fun passing v setting =>
        (!v.isPrerelease || setting.getD (optsIn || dashed (Text.words s))) && passing v := by
  rw [parse_eq]
  cases comparatorsOf (Text.words s) with
  | error refusal => rfl
  | ok cs => rfl

/-- Alternatives with the same words apart from stars accept the same, or are refused
    for the same reason. -/
theorem map_accepts_congr {s t : Text} (h : unstarred (Text.words s) = unstarred (Text.words t))
    (optsIn : Bool) : (parse s optsIn).map accepts = (parse t optsIn).map accepts := by
  rw [map_accepts_parse, map_accepts_parse, map_passes_unstarred, ← dashed_unstarred (Text.words s),
    h, ← map_passes_unstarred, dashed_unstarred]

/-- A text that is all blank is an alternative without tests. -/
theorem parse_blank {s : Text} (hs : ∀ c ∈ s, Text.isBlank c = true) (optsIn : Bool) :
    parse s optsIn = .ok ⟨[], optsIn⟩ := by
  rw [parse_congr (t := []) (Text.words_of_blank hs)]
  cases optsIn <;> rfl

end Alternative

namespace Range

/-- A range that is a single alternative, with options behind it. -/
theorem parse_single {s options : Text} {a : Alternative} (hcomma : ',' ∉ s) (hbar : '|' ∉ s)
    (hoptions : options = [] ∨ options.head? = some ',')
    (ha : Alternative.parse s (optsIn options) = .ok a) :
    parse (s ++ options) = .ok ⟨s ++ options, [a]⟩ := by
  have hsingle : splitBars s = [s] := by
    rw [splitBars_eq_self_iff]
    exact fun hbars => hbar (hbars.subset List.mem_cons_self)
  rw [parse_options hcomma hoptions, hsingle]
  simp only [List.mapM_cons, List.mapM_nil, ha]
  rfl

/-- The least version is a bound that keeps nothing out. No version is below it. A
    star and a range that is all blank hold the same, which is every release, and
    every pre-release where they are let in. Alternatives that differ in stars only
    accept the same, or are refused for the same reason. -/
theorem star_neutral :
    (∀ w : Version, (compare Version.zero w).isLE = true) ∧
      (∀ blank options : Text, (∀ c ∈ blank, Text.isBlank c = true) →
        options = [] ∨ options.head? = some ',' →
          ∃ star all, parse (['*'] ++ options) = .ok star ∧ parse (blank ++ options) = .ok all ∧
            ∀ w setting, star.contains w setting = all.contains w setting ∧
              (all.contains w setting = true ↔
                (w.isPrerelease = true → setting.getD (optsIn options) = true))) ∧
      ∀ (s t : Text) (optsIn : Bool),
        Alternative.unstarred (Text.words s) = Alternative.unstarred (Text.words t) →
          (Alternative.parse s optsIn).map Alternative.accepts =
            (Alternative.parse t optsIn).map Alternative.accepts := by
  refine ⟨Version.zero_isLE, fun blank options hblank hoptions => ?_, fun s t optsIn h =>
    Alternative.map_accepts_congr h optsIn⟩
  have hnone : ∀ c, Text.isBlank c = false → c ∉ blank := by
    intro c hc hmem
    rw [hblank c hmem] at hc
    exact Bool.noConfusion hc
  have hstar : Alternative.parse ['*'] (optsIn options) = .ok ⟨[⟨.ge, .zero⟩], optsIn options⟩ := by
    cases optsIn options <;> rfl
  have hall := Alternative.parse_blank hblank (optsIn options)
  refine ⟨_, _, parse_single (by decide) (by decide) hoptions hstar,
    parse_single (hnone _ (by decide)) (hnone _ (by decide)) hoptions hall,
    fun w setting => ⟨?_, ?_⟩⟩
  · have hsame : ∀ o : Bool, Alternative.accepts ⟨[⟨.ge, .zero⟩], o⟩ w setting =
        Alternative.accepts ⟨[], o⟩ w setting := by
      intro o
      have hpasses := congrFun (Alternative.passes_star []) w
      exact congrArg (Alternative.admits ⟨[], o⟩ w setting && ·) hpasses
    rw [contains, contains, List.any_cons, List.any_cons, hsame]
  · rw [contains_iff]
    simp

/-- A version that begins with an empty text is not below the least one, and a
    star between two bounds does not matter. -/
theorem star_neutral_between : (compare Version.zero ⟨"..-".toList⟩).isLE = true ∧
    (∃ star all, parse (['*'] ++ ", include_prerelease".toList) = .ok star ∧
      parse (" \t".toList ++ ", include_prerelease".toList) = .ok all ∧
      star.contains ⟨"..-".toList⟩ none = all.contains ⟨"..-".toList⟩ none ∧
      all.contains ⟨"..-".toList⟩ none = true) ∧
    (Alternative.parse ">=1 * <2".toList false).map Alternative.accepts =
      (Alternative.parse ">=1 <2".toList false).map Alternative.accepts := by
  have hasks : optsIn ", include_prerelease".toList = true := by decide +kernel
  have hblank : " \t".toList.all Text.isBlank = true := by decide +kernel
  obtain ⟨star, all, hstar, hall, hsame⟩ := star_neutral.2.1 " \t".toList
    ", include_prerelease".toList (List.all_eq_true.mp hblank) (Or.inr rfl)
  rcases hsame ⟨"..-".toList⟩ none with ⟨hboth, hin⟩
  exact ⟨star_neutral.1 _, ⟨star, all, hstar, hall, hboth, hin.mpr fun _ => hasks⟩,
    star_neutral.2.2 _ _ false (by decide +kernel)⟩

end Range

end PackageIndex
