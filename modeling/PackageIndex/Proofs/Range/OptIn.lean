import PackageIndex.Proofs.Range.Dashes
import PackageIndex.Proofs.Range.Words

/-!
# Asking for Pre-Releases

A pre-release can be let in by the setting, by an option behind the range and by
a dash behind a word. The last two are part of the text, and neither may change
what the text says otherwise: with dashes put behind any of its words and with
any options behind it, a range has the tests it had, or is refused for the reason
it was (`opt_ins_agree`). An option asks on behalf of every alternative and a dash
for its own alone, and once all have asked, the range holds without a setting what
it held before with pre-releases let in.

What an answer can be is the same for every range, however it was read. Letting
more in never takes anything out, releases do not notice, and a pre-release that
no setting speaks for needs an alternative that has asked and accepts it as well
(`Gated`). It is not enough that one alternative has asked and another one accepts
it.

## Main definitions

* `Range.AsksFor`: Options that ask for pre-releases.
* `Range.Asked`: An alternative that asks for them with its dashes and options.
* `Range.OptedIn`: A range and what it becomes with dashes and options.
* `Range.Gated`: What a setting does to an answer.

## Theorems

* `optsIn_iff`: When the options of a range ask for pre-releases.
* `parse_withDashes`: What dashes and options make of a range.
* `gated`: A setting decides about pre-releases and nothing else.
* `opt_ins_agree`: All ways of asking for pre-releases agree.
-/

namespace PackageIndex

namespace Range

theorem occurs_iff (pattern s : Text) : occurs pattern s = true ↔ pattern <:+: s := by
  induction s with
  | nil => rw [occurs, List.isEmpty_iff, List.infix_nil]
  | cons c s ih =>
      rw [occurs, Bool.or_eq_true, List.isPrefixOf_iff_prefix, ih, List.infix_cons_iff]

/-- Options of which one holds the words that ask for pre-releases. -/
def AsksFor (options : Text) : Prop :=
  ∃ option ∈ Text.pieces ',' options, includePrerelease <:+: option

/-- What stands behind a comma asks for pre-releases if one of its pieces does,
    with or without blanks around it. -/
theorem optsIn_iff {options : Text} (h : options = [] ∨ options.head? = some ',') :
    optsIn options = true ↔ AsksFor options := by
  have hne : includePrerelease ≠ [] := by decide
  have hblank : ∀ c ∈ includePrerelease, Text.isBlank c = false := Text.no_blank_of_all rfl
  have hlist : ∀ s : Text, (((Text.pieces ',' s).map Text.trim).filter (!·.isEmpty)).any
      asksForPrereleases = true ↔ AsksFor s := by
    intro s
    simp only [List.any_eq_true, List.mem_filter, List.mem_map]
    constructor
    · rintro ⟨_, ⟨⟨option, hoption, rfl⟩, -⟩, hasks⟩
      exact ⟨option, hoption, (Text.infix_trim_iff hne hblank).mp ((occurs_iff _ _).mp hasks)⟩
    · rintro ⟨option, hoption, hasks⟩
      have htrim := (Text.infix_trim_iff hne hblank).mpr hasks
      refine ⟨_, ⟨⟨option, hoption, rfl⟩, ?_⟩, (occurs_iff _ _).mpr htrim⟩
      rw [Bool.not_eq_true', Bool.eq_false_iff, ne_eq, List.isEmpty_iff]
      exact fun hnil => hne (List.infix_nil.mp (hnil ▸ htrim))
  cases options with
  | nil => exact hlist []
  | cons c rest =>
      have hc : c = ',' := by
        rcases h with h | h
        · exact absurd h (List.cons_ne_nil _ _)
        · exact Option.some.inj h
      subst hc
      -- In front of the comma there is an empty piece, which asks for nothing.
      have hfront : AsksFor (',' :: rest) ↔ AsksFor rest := by
        rw [AsksFor, Text.pieces, if_pos rfl]
        simp only [List.mem_cons, exists_eq_or_imp, List.infix_nil]
        exact or_iff_right hne
      exact (hlist rest).trans hfront.symm

/-- An alternative with dashes behind the chosen words, in a range with options,
    that asks for pre-releases by either. -/
def Asked (options : Text) (chosen : Nat → Bool) (a : Text) : Prop :=
  AsksFor options ∨ ∃ j < (Text.words a).length, chosen j = true

/-- What becomes of a range when dashes are put behind chosen words of its text and
    options behind the whole. The tests stay the same, and an alternative asks for
    pre-releases if it was made to. Once all do, the range holds without a setting
    what it held before with pre-releases let in. -/
structure OptedIn (s : Text) (chosen : Nat → Nat → Bool) (options : Text) (plain opted : Range) :
    Prop where
  comparators : opted.alternatives.map (·.comparators) = plain.alternatives.map (·.comparators)
  optsIn_iff : ∀ (k : Nat) (a : Text), (splitBars s)[k]? = some a →
    ∃ alternative, opted.alternatives[k]? = some alternative ∧
      (alternative.optsIn = true ↔ Asked options (chosen k) a)
  contains : (∀ (k : Nat) (a : Text), (splitBars s)[k]? = some a → Asked options (chosen k) a) →
    ∀ w, opted.contains w none = plain.contains w (some true)

/-- What a setting does to an answer. It lets pre-releases in or keeps them out,
    and without one only alternatives that ask for them accept any. -/
structure Gated (r : Range) (w : Version) : Prop where
  none_of_false : r.contains w (some false) = true → r.contains w none = true
  true_of_none : r.contains w none = true → r.contains w (some true) = true
  release : w.isPrerelease = false → ∀ setting setting',
    r.contains w setting = r.contains w setting'
  refused : w.isPrerelease = true → r.contains w (some false) = false
  none_iff : w.isPrerelease = true → (r.contains w none = true ↔
    ∃ a ∈ r.alternatives, a.optsIn = true ∧ ∀ c ∈ a.comparators, c.accepts w = true)

variable {s options : Text}

/-- Whether an alternative with dashes asks for pre-releases, in a range whose
    options do or do not. -/
def asks (optsIn : Bool) (chosen : Nat → Bool) (a : Text) : Bool :=
  optsIn || Alternative.dashed (Text.words (Alternative.withDashes chosen a))

/-- An alternative asks for pre-releases if it was made to. -/
theorem asks_iff {a : Text} (ha : ∀ word ∈ Text.words a, word.getLast? ≠ some '-')
    (hoptions : options = [] ∨ options.head? = some ',') (chosen : Nat → Bool) :
    asks (optsIn options) chosen a = true ↔ Asked options chosen a := by
  rw [asks, Bool.or_eq_true, optsIn_iff hoptions, Alternative.dashed_withDashes_iff ha, Asked]

/-- Alternatives with dashes are read as they are without, apart from what they ask
    for. -/
theorem mapM_parse_withDashes {as : List Text}
    (h : ∀ a ∈ as, ∀ word ∈ Text.words a, word.getLast? ≠ some '-')
    (chosen : Nat → Nat → Bool) (optsIn : Bool) :
    (as.mapIdx fun k => Alternative.withDashes (chosen k)).mapM (Alternative.parse · optsIn) =
      (as.mapM fun a => Alternative.comparatorsOf (Text.words a)).map fun tests =>
        List.zipWith Alternative.mk tests (as.mapIdx fun k => asks optsIn (chosen k)) := by
  induction as generalizing chosen with
  | nil => rfl
  | cons a as ih =>
      rw [List.mapIdx_cons, List.mapIdx_cons, List.mapM_cons, List.mapM_cons,
        Alternative.parse_withDashes (h a List.mem_cons_self),
        ih fun b hb => h b (List.mem_cons_of_mem _ hb)]
      -- The first refusal decides, and it is the same on both sides.
      cases Alternative.comparatorsOf (Text.words a) with
      | error refusal => rfl
      | ok cs =>
          cases as.mapM fun a => Alternative.comparatorsOf (Text.words a) with
          | error refusal => rfl
          | ok tests => rfl

theorem parse_withDashes (hcomma : ',' ∉ s)
    (hdash : ∀ a ∈ splitBars s, ∀ word ∈ Text.words a, word.getLast? ≠ some '-')
    (chosen : Nat → Nat → Bool) (hoptions : options = [] ∨ options.head? = some ',') :
    parse (withDashes chosen s ++ options) =
      ((splitBars s).mapM fun a => Alternative.comparatorsOf (Text.words a)).map fun tests =>
        ⟨withDashes chosen s ++ options, List.zipWith Alternative.mk tests
          ((splitBars s).mapIdx fun k => asks (optsIn options) (chosen k))⟩ := by
  rw [parse_options (comma_withDashes hcomma chosen) hoptions, splitBars_withDashes,
    mapM_parse_withDashes hdash]
  cases (splitBars s).mapM fun a => Alternative.comparatorsOf (Text.words a) with
  | error refusal => rfl
  | ok tests => rfl

/-- With pre-releases let in a range holds what its tests say. -/
theorem contains_some_true_congr {r r' : Range}
    (h : r.alternatives.map (·.comparators) = r'.alternatives.map (·.comparators)) (w : Version) :
    r.contains w (some true) = r'.contains w (some true) := by
  have htests : ∀ r : Range, r.contains w (some true) =
      (r.alternatives.map (·.comparators)).any fun cs => cs.all (·.accepts w) := by
    intro r
    rw [contains, List.any_map]
    simp only [Alternative.accepts_some_true]
    rfl
  rw [htests, htests, h]

/-- Where every alternative asks for pre-releases, they are let in without a
    setting. -/
theorem contains_none_of_forall {r : Range} (h : ∀ a ∈ r.alternatives, a.optsIn = true)
    (w : Version) : r.contains w none = r.contains w (some true) := by
  rw [Bool.eq_iff_iff, contains_iff, contains_iff]
  refine exists_congr fun a => and_congr_right fun ha => and_congr_left fun _ => ?_
  exact iff_of_true (fun _ => h a ha) fun _ => rfl

theorem map_comparators_zipWith {tests : List (List Comparator)} {flags : List Bool}
    (h : tests.length = flags.length) :
    (List.zipWith Alternative.mk tests flags).map (·.comparators) = tests := by
  rw [List.map_zipWith]
  change List.zipWith (fun cs _ => cs) tests flags = tests
  rw [← List.map_uncurry_zip_eq_zipWith]
  exact List.map_fst_zip (Nat.le_of_eq h)

/-- Alternatives that have the tests they had, and of which each asks for
    pre-releases if it was made to. -/
theorem optedIn_of_tests {tests : List (List Comparator)}
    (hdash : ∀ a ∈ splitBars s, ∀ word ∈ Text.words a, word.getLast? ≠ some '-')
    (hoptions : options = [] ∨ options.head? = some ',') (chosen : Nat → Nat → Bool)
    (hlength : tests.length = (splitBars s).length) {plain : Range}
    (hplain : plain.alternatives.map (·.comparators) = tests) (text : Text) :
    OptedIn s chosen options plain ⟨text, List.zipWith Alternative.mk tests
      ((splitBars s).mapIdx fun k => asks (optsIn options) (chosen k))⟩ := by
  have hcomparators := (map_comparators_zipWith (hlength.trans (List.length_mapIdx
    (f := fun k => asks (optsIn options) (chosen k))).symm)).trans hplain.symm
  refine ⟨hcomparators, fun k a ha => ?_, fun hasked w => ?_⟩
  · -- The tests and the answer for an alternative stand where its text does.
    have hk : k < tests.length := hlength ▸ (List.getElem?_eq_some_iff.mp ha).1
    refine ⟨⟨tests[k], asks (optsIn options) (chosen k) a⟩, ?_,
      asks_iff (hdash a (List.mem_of_getElem? ha)) hoptions (chosen k)⟩
    rw [List.getElem?_zipWith, List.getElem?_mapIdx, ha, List.getElem?_eq_getElem hk]
    rfl
  · rw [contains_none_of_forall fun alternative hmem => ?_]
    · exact contains_some_true_congr hcomparators w
    · rw [← List.map_uncurry_zip_eq_zipWith] at hmem
      obtain ⟨pair, hpair, rfl⟩ := List.mem_map.mp hmem
      obtain ⟨k, hk, hasks⟩ := List.mem_mapIdx.mp (List.of_mem_zip hpair).2
      change pair.2 = true
      rw [← hasks]
      exact (asks_iff (hdash _ (List.getElem_mem hk)) hoptions (chosen k)).mpr
        (hasked k _ (List.getElem?_eq_getElem hk))

theorem gated (r : Range) (w : Version) : Gated r w where
  none_of_false := by
    rw [contains_iff, contains_iff]
    rintro ⟨a, ha, hgate, htests⟩
    exact ⟨a, ha, fun hpre => absurd (hgate hpre) Bool.false_ne_true, htests⟩
  true_of_none := by
    rw [contains_iff, contains_iff]
    rintro ⟨a, ha, -, htests⟩
    exact ⟨a, ha, fun _ => rfl, htests⟩
  release hw setting setting' := by
    have hgate : ∀ b : Bool, w.isPrerelease = true → b = true := by
      rw [hw]
      exact fun _ h => Bool.noConfusion h
    rw [Bool.eq_iff_iff, contains_iff, contains_iff]
    exact exists_congr fun a => and_congr_right fun _ => and_congr_left fun _ =>
      iff_of_true (hgate _) (hgate _)
  refused hw := by
    rw [Bool.eq_false_iff, ne_eq, contains_iff]
    rintro ⟨a, -, hgate, -⟩
    exact absurd (hgate hw) Bool.false_ne_true
  none_iff hw := by
    rw [contains_iff]
    refine exists_congr fun a => and_congr_right fun _ => and_congr_left fun _ => ?_
    exact imp_iff_right hw

/-- All ways of asking for pre-releases agree, and nothing else depends on them.
    With dashes behind any words and any options behind the whole, a text without
    commas is refused as it is without them, or has the same tests and asks for
    pre-releases where it was made to. What a setting does to an answer is the same
    for every range. -/
theorem opt_ins_agree :
    (∀ (s : Text) (chosen : Nat → Nat → Bool) (options : Text), ',' ∉ s →
      (∀ a ∈ splitBars s, ∀ word ∈ Text.words a, word.getLast? ≠ some '-') →
      options = [] ∨ options.head? = some ',' →
        (∀ refusal, parse (withDashes chosen s ++ options) = .error refusal ↔
          parse s = .error refusal) ∧
        ∀ plain, parse s = .ok plain →
          ∃ opted, parse (withDashes chosen s ++ options) = .ok opted ∧
            OptedIn s chosen options plain opted) ∧
      ∀ (r : Range) (w : Version), Gated r w := by
  refine ⟨fun s chosen options hcomma hdash hoptions => ?_, gated⟩
  -- The text as it is has a dash nowhere and no options.
  have hplain := parse_withDashes hcomma hdash (fun _ _ => false) (Or.inl rfl)
  rw [withDashes_none, List.append_nil] at hplain
  rw [parse_withDashes hcomma hdash chosen hoptions, hplain]
  cases htests : (splitBars s).mapM fun a => Alternative.comparatorsOf (Text.words a) with
  | error other => exact ⟨fun refusal => Iff.rfl, fun plain h => absurd h (by simp [Except.map])⟩
  | ok tests =>
      refine ⟨fun refusal => iff_of_false (by simp [Except.map]) (by simp [Except.map]),
        fun plain h => ⟨_, rfl, ?_⟩⟩
      have hlength := length_of_mapM_eq_ok htests
      refine optedIn_of_tests hdash hoptions chosen hlength ?_ _
      rw [← Except.ok.inj h]
      exact map_comparators_zipWith (hlength.trans List.length_mapIdx.symm)

/-- A dash in each alternative and an option behind the whole let the same
    pre-releases in. -/
theorem opt_ins_agree_either : ∃ plain dashed optioned,
    parse ">=1 <2 || 3".toList = .ok plain ∧ parse ">=1 <2- || 3-".toList = .ok dashed ∧
      parse ">=1 <2 || 3, include_prerelease".toList = .ok optioned ∧
      ∀ w, dashed.contains w none = plain.contains w (some true) ∧
        optioned.contains w none = plain.contains w (some true) := by
  have hdash : ∀ a ∈ splitBars ">=1 <2 || 3".toList, ∀ word ∈ Text.words a,
      word.getLast? ≠ some '-' := by decide +kernel
  have hcomma : ',' ∉ ">=1 <2 || 3".toList := by decide +kernel
  have hplain : parse ">=1 <2 || 3".toList = .ok ⟨">=1 <2 || 3".toList,
      [⟨[⟨.ge, ⟨"1-".toList⟩⟩, ⟨.lt, ⟨"2".toList⟩⟩], false⟩, ⟨[⟨.eq, ⟨"3".toList⟩⟩], false⟩]⟩ := rfl
  obtain ⟨dashed, hdashed, hbydash⟩ := (opt_ins_agree.1 ">=1 <2 || 3".toList
    (fun k j => k + j == 1) [] hcomma hdash (Or.inl rfl)).2 _ hplain
  obtain ⟨optioned, hoptioned, hbyoption⟩ := (opt_ins_agree.1 ">=1 <2 || 3".toList
    (fun _ _ => false) ", include_prerelease".toList hcomma hdash (Or.inr rfl)).2 _ hplain
  refine ⟨_, dashed, optioned, hplain, hdashed, ?_, fun w =>
    ⟨hbydash.contains (fun k a ha => Or.inr ?_) w, hbyoption.contains (fun k a ha => Or.inl ?_) w⟩⟩
  · rwa [withDashes_none] at hoptioned
  · change [">=1 <2 ".toList, " 3".toList][k]? = some a at ha
    -- The second word of the first alternative, and the first of the second.
    cases k with
    | zero =>
        rw [← Option.some.inj ha]
        exact ⟨1, by decide +kernel, rfl⟩
    | succ k =>
        cases k with
        | zero =>
            rw [← Option.some.inj ha]
            exact ⟨0, by decide +kernel, rfl⟩
        | succ k => exact absurd ha (by simp)
  · exact ⟨" include_prerelease".toList, by decide +kernel, [' '], [], rfl⟩

end Range

end PackageIndex
