import PackageIndex.Proofs.Range.Pinned
import PackageIndex.Proofs.Version.Gap

/-!
# Shorthands Written Out

A tilde or a caret stands for the two ends of an interval, and both ends can be
written down: `~1.2.3` is `>=1.2.3 <1.3.0`, more or less. The bound that is written
is a bump, and the bound that is meant ends in an empty pre-release. What lies
between the two are the pre-releases of the bump, so a release never sees the
difference, and a pre-release sees it exactly if its main part is that of the bump
(`shorthand_written_out`).

For the bound to be written behind `<` its text has to be a word again. It is made
of pieces of a text that is one, and of digits (`bump_text`). It may not begin with
an equals sign either, as `<` and `=` would be one operator, and it does so only if
the version does.

## Main definitions

* `Range.WrittenOut`: A shorthand and the same range with both bounds written.

## Theorems

* `bump_text`: What a bump is written as.
* `Word.bump`: Behind an operator a bump is one word.
* `written_out`: The two intervals differ in the gap between their upper ends.
* `shorthand_written_out`: How a tilde or a caret can be written out.
-/

namespace PackageIndex

namespace Text

theorem isBlank_of_isDigit {c : Char} (h : c.isDigit = true) : isBlank c = false := by
  rcases Char.isDigit_iff_toNat.mp h with ⟨hlow, hhigh⟩
  have hzero : '0'.toNat = 48 := rfl
  have hnine : '9'.toNat = 57 := rfl
  -- The digits stand between two of the runs of blanks.
  simp only [isBlank, blankRanges, List.any_cons, List.any_nil, Bool.or_false, Bool.or_eq_false_iff,
    Bool.and_eq_false_iff, decide_eq_false_iff_not]
  omega

end Text

namespace Version

variable {v bumped : Version} {index : Nat}

/-- A component is written with digits or as the piece that it was read from. -/
theorem componentText_cases (v : Version) (index : Nat) :
    (∃ n, v.componentText index = Numeral.write n) ∨
      v.componentText index ∈ Text.pieces '.' v.head := by
  unfold componentText component?
  cases h : v.main[index]? with
  | none => exact Or.inl ⟨0, rfl⟩
  | some c =>
      obtain ⟨piece, hpiece, rfl⟩ := List.mem_map.mp (List.mem_of_getElem? h)
      rw [Option.getD_some]
      rcases Component.write_ofText piece with hwrite | ⟨n, hn⟩
      · rw [hwrite]
        exact Or.inr hpiece
      · rw [hn]
        exact Or.inl ⟨n.toNat, rfl⟩

theorem head_isPrefix (v : Version) : v.head <+: v.text :=
  (Text.cut_isPrefix '-' v.body).trans (Text.cut_isPrefix '+' v.text)

/-- The first component begins with a digit, or as the text does. -/
theorem head?_componentText_zero {c : Char} (h : (v.componentText 0).head? = some c) :
    c.isDigit = true ∨ v.text.head? = some c := by
  have hfirst : v.component? 0 = some (Component.ofText (Text.cut '.' v.head).1) := by
    rw [component?, main, components, Text.pieces_eq_cut]
    rfl
  rw [componentText, hfirst, Option.getD_some] at h
  rcases Component.write_ofText (Text.cut '.' v.head).1 with hwrite | ⟨n, hn⟩
  · obtain ⟨rest, hrest⟩ := (Text.cut_isPrefix '.' v.head).trans v.head_isPrefix
    rw [hwrite] at h
    rw [← hrest, List.head?_append, h]
    exact Or.inr rfl
  · rw [hn] at h
    exact Or.inl (Numeral.isDigit_of_mem_write (List.mem_of_head? h))

/-- What a bump is written as: the components in front of the index, a number,
    and zeros. -/
theorem bump_text (h : v.bump index = .ok bumped) : ∃ n : Nat, bumped.text =
    Text.join ['.'] ((List.range index).map v.componentText ++
      Numeral.write n :: List.replicate (v.main.length - (index + 1)) ['0']) := by
  unfold bump at h
  cases hcounted : v.counted index with
  | error refusal =>
      rw [hcounted] at h
      exact absurd h (by simp [bind, Except.bind])
  | ok front =>
      rw [hcounted] at h
      obtain ⟨n, next, -, -, hfront⟩ := counted_eq hcounted
      refine ⟨next.toNat, ?_⟩
      rw [← Except.ok.inj h, hfront, List.append_assoc]
      rfl

end Version

namespace Range

namespace Plain

theorem digits (n : Nat) : Plain (Numeral.write n) := by
  have hdigit : ∀ c : Char, c.isDigit = false → c ∉ Numeral.write n := by
    intro c hc hmem
    rw [Numeral.isDigit_of_mem_write hmem] at hc
    exact Bool.noConfusion hc
  exact ⟨fun c hc => Text.isBlank_of_isDigit (Numeral.isDigit_of_mem_write hc),
    hdigit ',' (by decide), fun hbars => hdigit '|' (by decide) (hbars.subset List.mem_cons_self)⟩

/-- What is part of a plain text is plain. -/
theorem part {s p : Text} (h : Plain s) (hp : p <:+: s) : Plain p :=
  ⟨fun c hc => h.blank c (hp.subset hc), fun hc => h.comma (hp.subset hc),
    fun hbars => h.bars (hbars.trans hp)⟩

/-- A dot makes no separator between pieces. -/
theorem join {ps : List Text} (h : ∀ p ∈ ps, Plain p) : Plain (Text.join ['.'] ps) := by
  refine ⟨fun c hc => ?_, fun hc => ?_, ?_⟩
  · rcases Text.mem_join hc with hc | ⟨p, hp, hc⟩
    · rw [List.mem_singleton.mp hc]
      decide
    · exact (h p hp).blank c hc
  · rcases Text.mem_join hc with hc | ⟨p, hp, hc⟩
    · exact absurd hc (by decide)
    · exact (h p hp).comma hc
  · rw [← splitBars_eq_self_iff]
    induction ps with
    | nil => rfl
    | cons p ps ih =>
        cases ps with
        | nil => exact (h p List.mem_cons_self).splitBars_eq
        | cons q ps =>
            rw [Text.join, List.append_assoc, List.singleton_append]
            exact splitBars_append_cons (by decide) (h p List.mem_cons_self).splitBars_eq
              (ih fun p hp => h p (List.mem_cons_of_mem _ hp))

end Plain

variable {s : Text} {bumped : Version} {index : Nat}

/-- A bump of a version that is a word is a word. -/
theorem Word.bump (h : Word s) (hbump : Version.bump ⟨s⟩ index = .ok bumped) : Word bumped.text := by
  rcases Version.bump_text hbump with ⟨n, htext⟩
  have hplain : Plain bumped.text := by
    rw [htext]
    refine Plain.join fun p hp => ?_
    rcases List.mem_append.mp hp with hp | hp
    · obtain ⟨i, -, rfl⟩ := List.mem_map.mp hp
      rcases Version.componentText_cases ⟨s⟩ i with ⟨m, hm⟩ | hpiece
      · rw [hm]
        exact Plain.digits m
      · exact h.toPlain.part
          ((Text.infix_of_mem_pieces hpiece).trans (Version.head_isPrefix ⟨s⟩).isInfix)
    · rcases List.mem_cons.mp hp with rfl | hp
      · exact Plain.digits n
      · rw [List.eq_of_mem_replicate hp]
        exact Plain.digits 0
  have hne : bumped.text ≠ [] := by
    intro hnil
    have hnumber : Numeral.write n <:+: bumped.text := by
      rw [htext]
      exact Text.infix_join ['.'] (List.mem_append_right _ List.mem_cons_self)
    rw [hnil, List.infix_nil] at hnumber
    exact Numeral.write_ne_nil n hnumber
  -- A dash would begin a pre-release, and a bump has none.
  have hdash : '-' ∉ bumped.text := by
    rcases Version.bump_parts hbump with ⟨-, -, -, -, -, hpre, hbuild⟩
    exact (Version.not_mem_of_no_parts hpre hbuild).2
  exact ⟨hplain, hne, fun hlast => hdash (List.mem_of_getLast? hlast)⟩

/-- A bump begins with an equals sign only if the version does. -/
theorem head?_bump (hequals : s.head? ≠ some '=') (hbump : Version.bump ⟨s⟩ index = .ok bumped) :
    bumped.text.head? ≠ some '=' := by
  rcases Version.bump_text hbump with ⟨n, htext⟩
  intro hhead
  rw [htext] at hhead
  -- At the first component the number stands in front, and further behind the
  -- component that the version begins with.
  cases index with
  | zero =>
      rcases Text.head?_join hhead with hdot | hdigit
      · exact absurd hdot (by decide)
      · exact absurd (Numeral.isDigit_of_mem_write (List.mem_of_head? hdigit)) (by decide)
  | succ index =>
      rw [List.range_succ_eq_map, List.map_cons, List.cons_append] at hhead
      rcases Text.head?_join hhead with hdot | hfirst
      · exact absurd hdot (by decide)
      · rcases Version.head?_componentText_zero hfirst with hdigit | hs
        · exact absurd hdigit (by decide)
        · exact hequals hs

/-- A shorthand and the range with both bounds written, the upper one being a
    bump. They hold the same releases. With pre-releases let in, they differ on
    those that have the main part of the bump, which only the second one holds. -/
structure WrittenOut (short long : Range) (bumped : Version) : Prop where
  releases : ∀ (w : Version) (setting : Option Bool), w.isPrerelease = false →
    short.contains w setting = long.contains w setting
  differ_iff : ∀ w : Version, w.isPrerelease = true →
    (short.contains w (some true) ≠ long.contains w (some true) ↔
      significant w.main = significant bumped.main)
  only_long : ∀ w : Version, w.isPrerelease = true →
    significant w.main = significant bumped.main →
    short.contains w (some true) = false ∧ long.contains w (some true) = true

/-- Two intervals with the same lower end, one up to an upper end and one up to the
    bump, differ in the gap between the two. -/
theorem written_out {v upper : Version} (hupper : v.upperBound index = .ok upper)
    (hbump : v.bump index = .ok bumped) (short long : Text) :
    WrittenOut ⟨short, [⟨[⟨.ge, v.lowerBound⟩, ⟨.lt, upper⟩], false⟩]⟩
      ⟨long, [⟨[⟨.ge, v.lowerBound⟩, ⟨.lt, bumped⟩], false⟩]⟩ bumped := by
  have hedges := Version.edges_ends hupper hbump
  have honly : ∀ w : Version, w.isPrerelease = true →
      significant w.main = significant bumped.main →
      contains ⟨short, [⟨[⟨.ge, v.lowerBound⟩, ⟨.lt, upper⟩], false⟩]⟩ w (some true) = false ∧
        contains ⟨long, [⟨[⟨.ge, v.lowerBound⟩, ⟨.lt, bumped⟩], false⟩]⟩ w (some true) = true := by
    intro w hw hmain
    have hge := hedges.not_lt_lower hmain
    rw [← Bool.not_eq_true, contains_interval_iff, contains_interval_iff]
    refine ⟨fun h => hge h.2.2, fun _ => rfl, fun hlower => hge ?_,
      (hedges.lt_release_iff w).mpr (Or.inr ⟨hw, hmain⟩)⟩
    -- What is below the lower end is below the version, and so below the upper end.
    exact Std.TransCmp.lt_trans (Version.lt_of_lt_lowerBound hlower) (Version.lt_upperBound hupper)
  refine ⟨fun w setting hw => ?_, fun w hw => ⟨fun hne => ?_, fun hmain => ?_⟩, honly⟩
  · rw [Bool.eq_iff_iff, contains_interval_iff, contains_interval_iff, hedges.lt_release_iff]
    simp [hw]
  · by_contra hmain
    refine hne ?_
    rw [Bool.eq_iff_iff, contains_interval_iff, contains_interval_iff, hedges.lt_release_iff]
    simp [hmain]
  · rw [(honly w hw hmain).1, (honly w hw hmain).2]
    exact Bool.false_ne_true

/-- A word that pins an index of a version can be written out. -/
theorem written_out_of_word {word : Text} {r : Range} {refusal : Refusal} {missing : Bool}
    (hword : Word s) (hequals : s.head? ≠ some '=')
    (hr : ((if missing then .error refusal else Comparator.pinned ⟨s⟩ index).map
      fun cs => (⟨word, [⟨cs, false⟩]⟩ : Range)) = .ok r) :
    ∃ bumped long, Version.bump ⟨s⟩ index = .ok bumped ∧
      parse ('>' :: '=' :: s ++ ' ' :: '<' :: bumped.text) = .ok long ∧
      WrittenOut r long bumped := by
  rcases interval_of_word hr with ⟨upper, hupper, rfl⟩
  have hcountable : ¬Version.Uncountable ⟨s⟩ index := by
    intro h
    rw [(Version.upperBound_eq_error_iff ⟨s⟩ index _).mpr ⟨h, rfl⟩] at hupper
    cases hupper
  rcases Version.exists_ends hcountable with ⟨-, bumped, -, hbump⟩
  have hend := hword.bump hbump
  have hparse := parse_words ((hword.signed (by decide)).signed (by decide))
    (hend.signed (by decide)) (ofWord_ge hword.ne_nil)
    (ofWord_lt hend.ne_nil (head?_bump hequals hbump))
  exact ⟨bumped, _, hbump, hparse, written_out hupper hbump word _⟩

/-- A tilde or a caret range is the range from its version on up to a bump, but for the
    pre-releases of the bump. For a tilde it is the bump of the second component, or of
    the first if there is no second, and for a caret that of the first component which is
    not zero, or of the one behind the last if all are. -/
theorem shorthand_written_out (s : Text) (hword : Word s) (hequals : s.head? ≠ some '=') :
    (∀ r, parse ('~' :: s) = .ok r → ∃ bumped long,
      Version.bump ⟨s⟩ (if 1 < (Version.main ⟨s⟩).length then 1 else 0) = .ok bumped ∧
      parse ('>' :: '=' :: s ++ ' ' :: '<' :: bumped.text) = .ok long ∧
      WrittenOut r long bumped) ∧
    ∀ r, parse ('^' :: s) = .ok r → ∃ bumped long,
      Version.bump ⟨s⟩ ((Version.main ⟨s⟩).findIdx (· ≠ .zero)) = .ok bumped ∧
      parse ('>' :: '=' :: s ++ ' ' :: '<' :: bumped.text) = .ok long ∧
      WrittenOut r long bumped := by
  constructor
  · intro r hr
    rw [parse_word (hword.signed (by decide)), ofWord_tilde] at hr
    exact written_out_of_word hword hequals hr
  · intro r hr
    rw [parse_word (hword.signed (by decide)), ofWord_caret] at hr
    exact written_out_of_word hword hequals hr

/-- A pre-release of the bump lies in the range that is written out only, and for
    a release nothing changes. -/
theorem shorthand_written_out_tilde : ∃ short long, parse "~01.2.x-rc+b".toList = .ok short ∧
    parse ">=01.2.x-rc+b <1.3.0".toList = .ok long ∧
    short.contains ⟨"1.3-a".toList⟩ (some true) = false ∧
    long.contains ⟨"1.3-a".toList⟩ (some true) = true ∧
    ∀ setting, short.contains ⟨"1.2.5".toList⟩ setting = long.contains ⟨"1.2.5".toList⟩ setting := by
  have hword : Word "01.2.x-rc+b".toList :=
    ⟨⟨Text.no_blank_of_all (by decide +kernel), by decide +kernel, by decide +kernel⟩,
      by decide +kernel, by decide +kernel⟩
  have hshort : parse "~01.2.x-rc+b".toList = .ok ⟨"~01.2.x-rc+b".toList,
      [⟨[⟨.ge, ⟨"01.2.x-rc+b".toList⟩⟩, ⟨.lt, ⟨"1.3-".toList⟩⟩], false⟩]⟩ := by decide +kernel
  have hexact : Version.bump ⟨"01.2.x-rc+b".toList⟩
      (if 1 < (Version.main ⟨"01.2.x-rc+b".toList⟩).length then 1 else 0) =
        .ok ⟨"1.3.0".toList⟩ := by decide +kernel
  obtain ⟨bumped, long, hbump, hlong, hwritten⟩ :=
    (shorthand_written_out "01.2.x-rc+b".toList hword (by decide +kernel)).1 _ hshort
  rw [Except.ok.inj (hbump.symm.trans hexact)] at hlong hwritten
  have honly := hwritten.only_long ⟨"1.3-a".toList⟩ (by decide +kernel) (by decide +kernel)
  exact ⟨_, long, hshort, hlong, honly.1, honly.2,
    fun setting => hwritten.releases ⟨"1.2.5".toList⟩ setting (by decide +kernel)⟩

end Range

end PackageIndex
