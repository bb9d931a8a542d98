import PackageIndex.Proofs.Range.Composition

/-!
# Ranges of One or Two Words

Most ranges that are written down consist of a word or two, and for a text that
holds no separator it is clear what it is read as: one word of one alternative
that does not ask for pre-releases (`parse_word`). `Range.Word` collects what this
takes, and an operator in front changes nothing about it (`Word.signed`).

Of two words one may stand behind the other in the same alternative
(`parse_words`), or each may be an alternative of its own (`parse_either`). The
blanks around a double bar are not needed, and belong to no word.

## Main definitions

* `Range.Plain`: A text that holds no separator.
* `Range.Word`: A text that is one word of a range.

## Theorems

* `parse_word`, `parse_words`, `parse_either`: Ranges of one and two words.
* `ofWord_ge`, `ofWord_lt`, `ofWord_gt`, `ofWord_eq`: Comparisons with a version.
* `contains_iff`: What lies in a range.
* `contains_single_iff`, `contains_interval_iff`: What lies in a range of one
  alternative.
-/

namespace PackageIndex

namespace Alternative

/-- Alternatives with the same words are the same. -/
theorem parse_congr {s t : Text} (h : Text.words s = Text.words t) (optsIn : Bool) :
    parse s optsIn = parse t optsIn := by
  rw [parse_eq, parse_eq, h]

/-- A text without separators is the only word of an alternative, and it is not
    split from a dash if it does not end in one. -/
theorem parse_word {s : Text} (hne : s ≠ []) (hblank : ∀ c ∈ s, Text.isBlank c = false)
    (hdash : s.getLast? ≠ some '-') (optsIn : Bool) :
    parse s optsIn = (Comparator.ofWord s).map (⟨·, optsIn⟩) := by
  have hsplit : splitDash s = (s, false) := by rw [splitDash, if_neg hdash]
  have hdashed : dashed [s] = false := by
    rw [dashed, List.map_singleton, hsplit]
    rfl
  rw [parse_eq, Text.words_eq_of_no_blank hne hblank, hdashed, Bool.or_false, comparatorsOf,
    List.map_singleton, hsplit]
  simp only [List.mapM_cons, List.mapM_nil]
  cases Comparator.ofWord s with
  | error refusal => rfl
  | ok cs =>
      change Except.ok (⟨[cs].flatten, optsIn⟩ : Alternative) = .ok ⟨cs, optsIn⟩
      rw [List.flatten_singleton]

end Alternative

namespace Range

/-- A text that holds no separator of ranges. -/
structure Plain (s : Text) : Prop where
  blank : ∀ c ∈ s, Text.isBlank c = false
  comma : ',' ∉ s
  bars : ¬['|', '|'] <:+: s

/-- A text that is one word of a range: it holds no separator, is not empty and
    does not end in a dash. -/
structure Word (s : Text) : Prop extends Plain s where
  ne_nil : s ≠ []
  dash : s.getLast? ≠ some '-'

/-- A text without commas has no options. -/
theorem parse_bare {s : Text} (hcomma : ',' ∉ s) :
    parse s = ((splitBars s).mapM (Alternative.parse · false)).map (⟨s, ·⟩) := by
  have hparse : parse (s ++ []) =
      ((splitBars s).mapM (Alternative.parse · (optsIn []))).map (⟨s ++ [], ·⟩) :=
    parse_options hcomma (Or.inl rfl)
  rwa [List.append_nil] at hparse

variable {s x y : Text} {cs ds : List Comparator}

theorem Plain.splitBars_eq (h : Plain s) : splitBars s = [s] := (splitBars_eq_self_iff s).mpr h.bars

/-- A plain text may have an operator in front of it. -/
theorem Plain.signed (h : Plain s) {c : Char} (hc : c ∈ ['=', '<', '>', '~', '^']) :
    Plain (c :: s) := by
  have hsign : Text.isBlank c = false ∧ c ≠ ',' ∧ c ≠ '|' := by
    simp only [List.mem_cons, List.not_mem_nil, or_false] at hc
    rcases hc with rfl | rfl | rfl | rfl | rfl <;> decide
  refine ⟨fun d hd => ?_, List.not_mem_cons_of_ne_of_not_mem hsign.2.1.symm h.comma, ?_⟩
  · rcases List.mem_cons.mp hd with rfl | hd
    · exact hsign.1
    · exact h.blank d hd
  · rw [← splitBars_eq_self_iff, splitBars_cons_eq_self_iff]
    exact ⟨fun hbar => absurd hbar hsign.2.2, h.splitBars_eq⟩

theorem Word.signed (h : Word s) {c : Char} (hc : c ∈ ['=', '<', '>', '~', '^']) :
    Word (c :: s) := by
  refine ⟨h.toPlain.signed hc, List.cons_ne_nil c s, ?_⟩
  obtain ⟨d, rest, hs⟩ := List.exists_cons_of_ne_nil h.ne_nil
  have hdash := h.dash
  rw [hs] at hdash ⊢
  rwa [List.getLast?_cons_cons]

theorem Word.alternative_eq (h : Word s) (optsIn : Bool) :
    Alternative.parse s optsIn = (Comparator.ofWord s).map (⟨·, optsIn⟩) :=
  Alternative.parse_word h.ne_nil h.blank h.dash optsIn

/-- A text without separators is a range of one word. -/
theorem parse_word (h : Word s) :
    parse s = (Comparator.ofWord s).map fun cs => ⟨s, [⟨cs, false⟩]⟩ := by
  rw [parse_bare h.comma, h.splitBars_eq]
  simp only [List.mapM_cons, List.mapM_nil, h.alternative_eq]
  cases Comparator.ofWord s with
  | error refusal => rfl
  | ok cs => rfl

/-- Two words with a blank between them are one alternative. -/
theorem parse_words (hx : Word x) (hy : Word y) (hcs : Comparator.ofWord x = .ok cs)
    (hds : Comparator.ofWord y = .ok ds) :
    parse (x ++ ' ' :: y) = .ok ⟨x ++ ' ' :: y, [⟨cs ++ ds, false⟩]⟩ := by
  have hcomma : ',' ∉ x ++ ' ' :: y := by
    intro h
    rcases List.mem_append.mp h with h | h
    · exact hx.comma h
    · exact hy.comma (List.mem_of_ne_of_mem (by decide) h)
  have halternative : Alternative.parse (x ++ ' ' :: y) false = .ok ⟨cs ++ ds, false⟩ := by
    have happend := Alternative.parse_append_blank x y false
    rw [List.append_assoc, List.singleton_append] at happend
    rw [happend, hx.alternative_eq, hy.alternative_eq, hcs, hds]
    rfl
  rw [parse_bare hcomma, splitBars_append_cons (by decide) hx.splitBars_eq hy.splitBars_eq]
  simp only [List.mapM_cons, List.mapM_nil, halternative]
  rfl

/-- Two words with a double bar between them are two alternatives. -/
theorem parse_either (hx : Word x) (hy : Word y) (hcs : Comparator.ofWord x = .ok cs)
    (hds : Comparator.ofWord y = .ok ds) :
    parse (x ++ [' ', '|', '|', ' '] ++ y) =
      .ok ⟨x ++ [' ', '|', '|', ' '] ++ y, [⟨cs, false⟩, ⟨ds, false⟩]⟩ := by
  have hcomma : ',' ∉ x ++ [' ', '|', '|', ' '] ++ y := by
    intro h
    rcases List.mem_append.mp h with h | h
    · rcases List.mem_append.mp h with h | h
      · exact hx.comma h
      · exact absurd h (by decide)
    · exact hy.comma h
  have hsplit : splitBars (x ++ [' ', '|', '|', ' '] ++ y) = [x ++ [' '], ' ' :: y] := by
    have hfront : splitBars (x ++ [' ']) = [x ++ [' ']] :=
      splitBars_append_cons (by decide) hx.splitBars_eq rfl
    have hback : splitBars (' ' :: y) = [' ' :: y] :=
      splitBars_append_cons (x := []) (by decide) rfl hy.splitBars_eq
    have happend := splitBars_append (a := x ++ [' ']) (by simp) (' ' :: y)
    rw [hfront, hback] at happend
    simpa using happend
  -- The blanks next to the bars belong to no word.
  have hfront : Text.words (x ++ [' ']) = Text.words x := by
    rw [Text.words_append_blank (by decide)]
    exact List.append_nil _
  have hback : Text.words (' ' :: y) = Text.words y :=
    Text.words_append_blank (x := []) (by decide) y
  rw [parse_bare hcomma, hsplit]
  simp only [List.mapM_cons, List.mapM_nil, Alternative.parse_congr hfront,
    Alternative.parse_congr hback, hx.alternative_eq, hy.alternative_eq, hcs, hds]
  rfl

/-- Behind an inclusive lower bound stands any version. -/
theorem ofWord_ge (hs : s ≠ []) :
    Comparator.ofWord ('>' :: '=' :: s) = .ok [⟨.ge, Version.lowerBound ⟨s⟩⟩] := by
  obtain ⟨c, rest, rfl⟩ := List.exists_cons_of_ne_nil hs
  rfl

theorem ofWord_eq (hs : s ≠ []) : Comparator.ofWord ('=' :: s) = .ok [⟨.eq, ⟨s⟩⟩] := by
  obtain ⟨c, rest, rfl⟩ := List.exists_cons_of_ne_nil hs
  rfl

/-- A strict comparison would be another one in front of an equals sign. -/
theorem ofWord_lt (hs : s ≠ []) (hequals : s.head? ≠ some '=') :
    Comparator.ofWord ('<' :: s) = .ok [⟨.lt, ⟨s⟩⟩] := by
  obtain ⟨c, rest, rfl⟩ := List.exists_cons_of_ne_nil hs
  have hread : Operator.read ('<' :: c :: rest) = (.relation .lt, c :: rest) := by
    unfold Operator.read
    split <;> simp_all
  rw [Comparator.ofWord, hread]
  rfl

theorem ofWord_gt (hs : s ≠ []) (hequals : s.head? ≠ some '=') :
    Comparator.ofWord ('>' :: s) = .ok [⟨.gt, ⟨s⟩⟩] := by
  obtain ⟨c, rest, rfl⟩ := List.exists_cons_of_ne_nil hs
  have hread : Operator.read ('>' :: c :: rest) = (.relation .gt, c :: rest) := by
    unfold Operator.read
    split <;> simp_all
  rw [Comparator.ofWord, hread]
  rfl

theorem accepts_ge_iff (b w : Version) :
    Comparator.accepts ⟨.ge, b⟩ w = true ↔ compare w b ≠ .lt :=
  Ordering.isGE_iff_ne_lt

theorem accepts_lt_iff (b w : Version) :
    Comparator.accepts ⟨.lt, b⟩ w = true ↔ compare w b = .lt :=
  Ordering.isLT_iff_eq_lt

/-- Equal and greater together is what is not less. -/
theorem accepts_eq_or_gt_iff (b w : Version) :
    Comparator.accepts ⟨.eq, b⟩ w = true ∨ Comparator.accepts ⟨.gt, b⟩ w = true ↔
      compare w b ≠ .lt := by
  change (compare w b).isEq = true ∨ (compare w b).isGT = true ↔ _
  cases compare w b <;> decide

/-- A range holds what passes the tests of one of its alternatives, and pre-releases
    only if the setting or that alternative lets them in. -/
theorem contains_iff (r : Range) (w : Version) (setting : Option Bool) :
    r.contains w setting = true ↔ ∃ a ∈ r.alternatives,
      (w.isPrerelease = true → setting.getD a.optsIn = true) ∧
        ∀ c ∈ a.comparators, c.accepts w = true := by
  have hadmits : ∀ a : Alternative, a.admits w setting = true ↔
      (w.isPrerelease = true → setting.getD a.optsIn = true) := by
    intro a
    rw [Alternative.admits]
    cases w.isPrerelease <;> simp
  simp only [contains, List.any_eq_true, Alternative.accepts, Bool.and_eq_true, hadmits,
    List.all_eq_true]

/-- A range of a single alternative that does not ask for pre-releases holds what
    passes its tests, and pre-releases only if the setting lets them in. -/
theorem contains_single_iff (text : Text) (cs : List Comparator) (w : Version)
    (setting : Option Bool) :
    contains ⟨text, [⟨cs, false⟩]⟩ w setting = true ↔
      (w.isPrerelease = true → setting = some true) ∧ ∀ c ∈ cs, c.accepts w = true := by
  have hsetting : setting.getD false = true ↔ setting = some true := by
    cases setting with
    | none => simp
    | some b => simp
  rw [contains_iff]
  simp only [List.mem_singleton, exists_eq_left, hsetting]

theorem contains_interval_iff (text : Text) (lower upper w : Version) (setting : Option Bool) :
    contains ⟨text, [⟨[⟨.ge, lower⟩, ⟨.lt, upper⟩], false⟩]⟩ w setting = true ↔
      (w.isPrerelease = true → setting = some true) ∧
        compare w lower ≠ .lt ∧ compare w upper = .lt := by
  rw [contains_single_iff, List.forall_mem_cons, List.forall_mem_singleton, accepts_ge_iff,
    accepts_lt_iff]

end Range

end PackageIndex
